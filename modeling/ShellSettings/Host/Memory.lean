import ShellSettings.Host.Transport

/-!
# A host in memory

Keeps the document as a value and pushes what a real host would: a successful
save makes a change notification, the echo, and a result. Messages can be held
back, left out or put in the other order, and saves and loads can be made to
fail, which gives every race that a client has to survive.
-/

namespace ShellSettings

structure MemoryHost where
  document : Document := {}
  -- Messages that can be received.
  inbox : List HostMessage := []
  -- Messages held back while the host is paused.
  held : List HostMessage := []
  paused : Bool := false
  dropEchoes : Bool := false
  dropResults : Bool := false
  -- The result of a save comes before its echo.
  resultFirst : Bool := false
  -- Errors that the next saves end in.
  persistFailures : List HostError := []
  -- The error that every load ends in.
  loadFailure : Option HostError := none
  -- Every document accepted, oldest first.
  persisted : List Document := []
  -- Every request that came, oldest first.
  requests : List HostRequest := []

namespace MemoryHost

def push (h : MemoryHost) (m : HostMessage) : MemoryHost :=
  if h.paused then { h with held := h.held ++ [m] } else { h with inbox := h.inbox ++ [m] }

def pause (h : MemoryHost) : MemoryHost := { h with paused := true }

def resume (h : MemoryHost) : MemoryHost :=
  { h with paused := false, held := [], inbox := h.inbox ++ h.held }

def pushExternal (h : MemoryHost) (d : Document) : MemoryHost :=
  { h with document := d }.push (.changed d)

def pushCatalog (h : MemoryHost) (feed : Feed) : MemoryHost := h.push (.catalogUpdated feed)

def versionError? (r : HostRequest) : Option HostError :=
  if r.version < Protocol.low ∨ Protocol.high < r.version then
    some (.unsupportedProtocol r.version Protocol.low Protocol.high)
  else none

/-- Saves the document of a request and pushes what comes of it. -/
def persist (h : MemoryHost) (r : HostRequest) : MemoryHost :=
  match r.savable, h.persistFailures with
  | .error e, _ => h.push (.persistFailed r.id e)
  | .ok _, e :: rest => { h with persistFailures := rest }.push (.persistFailed r.id e)
  | .ok d, [] =>
    let h := { h with document := d, persisted := h.persisted ++ [d] }
    let echo := if h.dropEchoes then [] else [HostMessage.changed d]
    let result := if h.dropResults then [] else [HostMessage.persisted r.id]
    (if h.resultFirst then result ++ echo else echo ++ result).foldl push h

def request (h : MemoryHost) (r : HostRequest) : Except TransportError HostResponse × MemoryHost :=
  let h := { h with requests := h.requests ++ [r] }
  let response :=
    match versionError? r with
    | some e => .failure Protocol.high r.id e
    | none =>
      if r.op ≠ Protocol.loadOp then .failure r.version r.id (.unknownOperation r.op)
      else match h.loadFailure with
        | some e => .failure r.version r.id e
        | none => .success r.version r.id (.obj [("document", h.document.toValue)])
  (.ok response, h)

def submit (h : MemoryHost) (r : HostRequest) : Except TransportError Unit × MemoryHost :=
  let h := { h with requests := h.requests ++ [r] }
  match versionError? r with
  | some e => (.error (.host e), h)
  | none =>
    if r.op ≠ Protocol.persistOp then (.error (.host (.unknownOperation r.op)), h)
    else (.ok (), h.persist r)

def receive (h : MemoryHost) : Except TransportError (Option HostMessage) × MemoryHost :=
  match h.inbox with
  | [] => (.ok none, h)
  | m :: rest => (.ok (some m), { h with inbox := rest })

instance : Transport MemoryHost where
  request := request
  submit := submit
  receive := receive
  backlog h := h.inbox.length
  backlog_receive h h' m e := by
    unfold receive at e
    split at e <;> simp_all
    obtain ⟨-, rfl⟩ := e
    simp

end MemoryHost

end ShellSettings
