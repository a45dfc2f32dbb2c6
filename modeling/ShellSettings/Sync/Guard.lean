import ShellSettings.Document.Basic

/-!
# The echo guard

A host that saves a document tells everyone that the document changed, the saver
included. The guard tells that echo from a genuine change. It is armed when a
save goes out, and from then on the first change is taken for the echo. If the
save is confirmed before its echo, the guard goes on waiting for a change with
exactly the digest saved. A guard that has waited for its timeout is stale.

Times are milliseconds of a clock; a clock that goes back makes an age of zero.
-/

namespace ShellSettings

structure InFlightSave where
  requestId : String
  -- Digest of the document that was handed over.
  digest : String
  document : Document
  armedAt : Nat
  -- Its echo has come.
  echoSeen : Bool := false
  -- A genuine change came after the echo, so the host has another document by now.
  superseded : Bool := false

structure SettledSave where
  requestId : String
  digest : String
  settledAt : Nat
deriving DecidableEq, Repr

inductive EchoGuard where
  | idle
  | awaitingEcho (save : InFlightSave)
  | awaitingLateEcho (save : SettledSave)

inductive Inbound where
  -- The echo of a save, with whether it carries the document that was saved.
  | echo (requestId : String) (digestMatches : Bool)
  | external
  -- The guard had become stale before the change.
  | externalAfterExpiry (requestId : String)
deriving DecidableEq, Repr

namespace EchoGuard

def isIdle : EchoGuard → Bool
  | .idle => true
  | _ => false

def inFlight? : EchoGuard → Option InFlightSave
  | .awaitingEcho save => some save
  | _ => none

/-- The guard for a new save, which replaces a late echo still awaited. -/
def arm (save : InFlightSave) : EchoGuard := .awaitingEcho save

/-- Waits for the echo of a confirmed save, unless the guard is waiting already. -/
def awaitLateEcho (g : EchoGuard) (save : InFlightSave) (now : Nat) : EchoGuard :=
  match g with
  | .idle => .awaitingLateEcho ⟨save.requestId, save.digest, now⟩
  | g => g

def settle (g : EchoGuard) (requestId : String) : Option InFlightSave × EchoGuard :=
  match g with
  | .awaitingEcho save => if save.requestId = requestId then (some save, .idle) else (none, g)
  | g => (none, g)

def waiting? : EchoGuard → Option (String × Nat)
  | .idle => none
  | .awaitingEcho save => some (save.requestId, save.armedAt)
  | .awaitingLateEcho save => some (save.requestId, save.settledAt)

/-- Clears a guard that has waited for the timeout, and says what for. Without a timeout it
waits forever. -/
def expire (g : EchoGuard) (timeout : Option Nat) (now : Nat) : Option String × EchoGuard :=
  match g.waiting?, timeout with
  | some (requestId, since), some timeout =>
    if now - since < timeout then (none, g) else (some requestId, .idle)
  | _, _ => (none, g)

def classifyFresh (g : EchoGuard) (digest : Option String) : Inbound × EchoGuard :=
  match g with
  | .idle => (.external, .idle)
  | .awaitingEcho save =>
    if save.echoSeen then (.external, .awaitingEcho { save with superseded := true })
    else (.echo save.requestId (digest == some save.digest),
      .awaitingEcho { save with echoSeen := true })
  | .awaitingLateEcho save =>
    (if digest == some save.digest then .echo save.requestId true else .external, .idle)

def classify (g : EchoGuard) (digest : Option String) (timeout : Option Nat) (now : Nat) :
    Inbound × EchoGuard :=
  match g.expire timeout now with
  | (some requestId, g) => (.externalAfterExpiry requestId, g)
  | (none, g) => g.classifyFresh digest

end EchoGuard

end ShellSettings
