import ShellSettings.Host.Transport
import ShellSettings.Store.Command
import ShellSettings.Sync.Guard
import ShellSettings.Tuning.Basic

/-!
# Keeping a store and a host in step

A `Client` is a store with what synchronization has to remember; a `Session` is a
client with the host behind a transport. Loading makes the host's document both
current document and snapshot. A save hands the whole document over and arms the
echo guard. Every message goes through `Client.handle`, the one way by which a
host changes the store: the echo of a save is dropped, so that edits made in the
meantime survive it, and any other change replaces the document.
-/

namespace ShellSettings

structure SyncConfig where
  -- Milliseconds after which an armed guard is stale, nothing for never.
  echoTimeout : Option Nat := some 30000
  -- Milliseconds that a blocking save waits for its result.
  persistTimeout : Nat := 10000
deriving DecidableEq, Repr

def Tuning.syncConfig (t : Tuning) : SyncConfig := ⟨t.echoTimeout, t.persistTimeout⟩

def showMilliseconds (ms : Nat) : String :=
  if ms = 0 then "0ns"
  else if ms < 1000 then toString ms ++ "ms"
  else
    let fraction := ms % 1000
    let digits := [fraction / 100, fraction / 10 % 10, fraction % 10].map Nat.digitChar
    let shown := (digits.reverse.dropWhile (· == '0')).reverse
    toString (ms / 1000) ++ String.ofList (if shown.isEmpty then [] else '.' :: shown) ++ "s"

inductive SyncError where
  -- Nothing could be loaded.
  | load (reason : String)
  -- The save failed; the edits stay unsaved.
  | persist (reason : String)
  | persistTimedOut (requestId : String) (timeout : Nat)
  | saveInFlight (requestId : String)
  | transport (e : TransportError)
  | store (e : StoreError)

def SyncError.message : SyncError → String
  | .load reason => "Load failed: " ++ reason
  | .persist reason => "Persist failed: " ++ reason
  | .persistTimedOut id timeout =>
    "Persist request " ++ id ++ " not settled within " ++ showMilliseconds timeout
  | .saveInFlight id => "Save " ++ id ++ " is still in flight"
  | .transport e => "Transport error: " ++ e.message
  | .store e => "Store error: " ++ e.message

inductive Outcome where
  | echoSuppressed (requestId : String)
  -- Another writer's document has replaced the current one.
  | externalReplaced (revision : Option Nat) (dropped : List Reference)
  | saveConfirmed (requestId : String)
  | saveFailed (requestId : String) (error : HostError)
  -- A result that nobody is waiting for.
  | staleResult (requestId : String)
  | catalogApplied (kind : ResourceKind) (dropped : List Reference)

structure SyncStatus where
  lastLoadedAt : Option Nat := none
  lastSavedAt : Option Nat := none
  lastExternalChangeAt : Option Nat := none
  savesConfirmed : Nat := 0
  saveFailures : Nat := 0
  echoesSuppressed : Nat := 0
  externalChanges : Nat := 0
  guardsExpired : Nat := 0
deriving DecidableEq, Repr

structure Client where
  store : Store
  config : SyncConfig := {}
  guard : EchoGuard := .idle
  -- How many requests have been numbered.
  counter : Nat := 0
  status : SyncStatus := {}

/-- The id of the n-th request: its number in at least six digits. -/
def requestId (n : Nat) : String :=
  let digits := Nat.toDigits 10 n
  "req-" ++ String.ofList (List.replicate (6 - digits.length) '0' ++ digits)

namespace Client

def ofTuning (t : Tuning) (ids : IdSource) : Except StoreError Client :=
  match RestartPolicy.withPaths t.restartPaths with
  | .error e => .error (.invalidPath e)
  | .ok policy => .ok { store := { policy, ids }, config := t.syncConfig }

def nextRequest (c : Client) : String × Client :=
  (requestId (c.counter + 1), { c with counter := c.counter + 1 })

def countExpired (c : Client) : Client :=
  { c with status := { c.status with guardsExpired := c.status.guardsExpired + 1 } }

def countConfirmed (c : Client) (now : Nat) : Client :=
  { c with status := { c.status with
      savesConfirmed := c.status.savesConfirmed + 1, lastSavedAt := some now } }

def countFailed (c : Client) : Client :=
  { c with status := { c.status with saveFailures := c.status.saveFailures + 1 } }

/-- Another writer's document takes the place of the current one, unsaved edits included. -/
def replace (c : Client) (d : Document) (now : Nat) : Outcome × Client :=
  let (store, dropped) := c.store.install d
  (.externalReplaced store.revision dropped,
    { c with
      store
      status := { c.status with
        externalChanges := c.status.externalChanges + 1, lastExternalChangeAt := some now } })

def handleChanged (c : Client) (d : Document) (now : Nat) : Outcome × Client :=
  match c.guard.classify (some d.digest) c.config.echoTimeout now with
  | (.echo id _, guard) =>
    (.echoSuppressed id,
      { c with
        guard
        status := { c.status with echoesSuppressed := c.status.echoesSuppressed + 1 } })
  | (.external, guard) => { c with guard }.replace d now
  | (.externalAfterExpiry _, guard) => { c with guard }.countExpired.replace d now

def unexplained : HostError := .storageFailure "host reported failure without details"

/-- A result settles the save in flight if it is its own. A save that was superseded is confirmed
without becoming the snapshot, since the host has another document by now. -/
def handleResult (c : Client) (id : String) (ok : Bool) (error : Option HostError) (now : Nat) :
    Except SyncError Outcome × Client :=
  match c.guard.settle id with
  | (none, _) => (.ok (.staleResult id), c)
  | (some save, guard) =>
    let c := { c with guard }
    if !ok then (.ok (.saveFailed id (error.getD unexplained)), c.countFailed)
    else if save.superseded then (.ok (.saveConfirmed id), c.countConfirmed now)
    else
      let c := if save.echoSeen then c else { c with guard := c.guard.awaitLateEcho save now }
      match c.store.markSaved save.document with
      | .error e => (.error (.store e), c)
      | .ok store => (.ok (.saveConfirmed id), { c with store }.countConfirmed now)

def handle (c : Client) (m : HostMessage) (now : Nat) : Except SyncError Outcome × Client :=
  match m with
  | .persistResult id ok error => c.handleResult id ok error now
  | .changed d =>
    let (outcome, c) := c.handleChanged d now
    (.ok outcome, c)
  | .catalogUpdated feed =>
    let (store, dropped) := c.store.applyCatalog feed
    (.ok (.catalogApplied feed.kind dropped), { c with store })

end Client

structure Session (η : Type) where
  client : Client
  host : η

namespace Session

variable {η : Type} [Transport η]

def loadedDocument (r : HostResponse) : Except SyncError Document :=
  if !r.ok then
    .error (.load ((r.error.map HostError.display).getD "host returned ok=false without error"))
  else
    match r.payload.bind (·.get? "document") with
    | none => .error (.load "load response carries no document")
    | some v =>
      match Document.ofJson? v with
      | .error e => .error (.load ("host document is malformed: " ++ e.message))
      | .ok d => .ok d

def load (s : Session η) (path : Option String) (now : Nat) :
    Except SyncError (List Reference) × Session η :=
  let (id, client) := s.client.nextRequest
  match Transport.request s.host (.load id path) with
  | (.error e, host) => (.error (.load e.message), { client, host })
  | (.ok response, host) =>
    match loadedDocument response with
    | .error e => (.error e, { client, host })
    | .ok d =>
      let (store, dropped) := client.store.install d
      (.ok dropped,
        { client := { client with store, status := { client.status with lastLoadedAt := some now } }
          host })

def expireGuard (c : Client) (now : Nat) : Client :=
  match c.guard.expire c.config.echoTimeout now with
  | (some _, guard) => { c with guard }.countExpired
  | (none, _) => c

/-- Hands the current document to the host, without waiting for the result. The guard is armed
before the request leaves, so that no echo comes too early. -/
def beginSave (s : Session η) (now : Nat) : Except SyncError String × Session η :=
  let client := expireGuard s.client now
  match client.guard.inFlight? with
  | some save => (.error (.saveInFlight save.requestId), { s with client })
  | none =>
    match client.store.get with
    | .error e => (.error (.store e), { s with client })
    | .ok d =>
      let (id, client) := client.nextRequest
      let digest := d.digest
      match Transport.submit s.host (.persist id d digest) with
      | (.error e, host) =>
        (.error (.persist e.message),
          { client := { client with guard := .idle }.countFailed, host })
      | (.ok (), host) =>
        let guard := EchoGuard.arm { requestId := id, digest, document := d, armedAt := now }
        (.ok id, { client := { client with guard }, host })

def awaitResult (s : Session η) (id : String) (now : Nat) : Except SyncError Unit × Session η :=
  match _h : Transport.receive s.host with
  | (.error e, host) => (.error (.transport e), { s with host })
  | (.ok none, host) =>
    (.error (.persistTimedOut id s.client.config.persistTimeout), { s with host })
  | (.ok (some m), host) =>
    match s.client.handle m now with
    | (.error e, client) => (.error e, { client, host })
    | (.ok (.saveConfirmed other), client) =>
      if other = id then (.ok (), { client, host })
      else awaitResult { client, host } id now
    | (.ok (.saveFailed other error), client) =>
      if other = id then (.error (.persist error.display), { client, host })
      else awaitResult { client, host } id now
    | (.ok _, client) => awaitResult { client, host } id now
termination_by Transport.backlog s.host
decreasing_by all_goals exact Transport.backlog_receive s.host host m ‹_›

/-- Saves and waits for the result. A transport never waits for a message, so that none left
means that the time is up. -/
def save (s : Session η) (now : Nat) : Except SyncError Unit × Session η :=
  match s.beginSave now with
  | (.error e, s) => (.error e, s)
  | (.ok id, s) => s.awaitResult id now

def pump (s : Session η) (now : Nat) : Except SyncError (List Outcome) × Session η :=
  match _h : Transport.receive s.host with
  | (.error e, host) => (.error (.transport e), { s with host })
  | (.ok none, host) => (.ok [], { s with host })
  | (.ok (some m), host) =>
    match s.client.handle m now with
    | (.error e, client) => (.error e, { client, host })
    | (.ok outcome, client) =>
      match pump { client, host } now with
      | (.error e, s) => (.error e, s)
      | (.ok outcomes, s) => (.ok (outcome :: outcomes), s)
termination_by Transport.backlog s.host
decreasing_by exact Transport.backlog_receive s.host host m ‹_›

end Session

end ShellSettings
