import ShellSettings.Host.Transport

/-!
# A host on disk

Keeps the document as indented JSON in a file. A save writes a file beside it
and moves that into its place, so nobody ever reads half a document. Edits that
others make to the file are found by digest when the client asks for messages.
-/

namespace ShellSettings

structure DiskHost where
  path : FilePath
  tree : FileTree
  inbox : List HostMessage := []
  -- Digest of the document last read or written here.
  lastDigest : Option String := none

namespace DiskHost

def defaultName : String := ".config/shellconf/settings.json"

def defaultPath (home : Option String) : Except TransportError FilePath :=
  match home with
  | none => .error (.io .homeUnset)
  | some h => .ok (FilePath.under ⟨h⟩ defaultName)

def readDocument (t : FileTree) (p : FilePath) : Except TransportError Document :=
  match t.readText p with
  | .error e => .error (.io e)
  | .ok text =>
    match Document.ofText? text with
    | .error e => .error (.serialization e)
    | .ok d => .ok d

def besidePath (p : FilePath) : FilePath := p.withExtension "json.tmp"

def writeDocument (p : FilePath) (d : Document) : Disk Unit := fun t =>
  let made : Except IoError Unit × FileTree := match p.parent? with
    | none => (.ok (), t)
    | some parent => FileTree.ensureDirectories parent t
  match made with
  | (.error e, t) => (.error e, t)
  | (.ok (), t) =>
    match FileTree.write (besidePath p) (.text d.toJson.pretty) t with
    | (.error e, t) => (.error e, t)
    | (.ok (), t) => FileTree.rename (besidePath p) p t

/-- Reads the document, or writes a default one where there is no file. A path given becomes the
host's own, whether or not this succeeds. -/
def load (h : DiskHost) (path : Option String) : Except TransportError Document × DiskHost :=
  let h := match path with
    | some p => { h with path := ⟨p⟩ }
    | none => h
  if h.tree.has h.path then
    match readDocument h.tree h.path with
    | .error e => (.error e, h)
    | .ok d => (.ok d, { h with lastDigest := some d.digest })
  else
    let d : Document := {}
    match writeDocument h.path d h.tree with
    | (.error e, tree) => (.error (.io e), { h with tree })
    | (.ok (), tree) => (.ok d, { h with tree, lastDigest := some d.digest })

/-- Saves the document of a request; a document saved makes a change notification. -/
def persist (h : DiskHost) (r : HostRequest) : Except HostError Unit × DiskHost :=
  match r.savable with
  | .error e => (.error e, h)
  | .ok d =>
    match writeDocument h.path d h.tree with
    | (.error e, tree) =>
      (.error (.storageFailure (TransportError.io e).message), { h with tree })
    | (.ok (), tree) =>
      (.ok (), { h with tree, lastDigest := some d.digest, inbox := h.inbox ++ [.changed d] })

/-- The document in the file, if someone else has put it there. -/
def externalEdit? (h : DiskHost) : Option Document :=
  match h.lastDigest with
  | none => none
  | some last =>
    match readDocument h.tree h.path with
    | .error _ => none
    | .ok d => if d.digest = last then none else some d

def request (h : DiskHost) (r : HostRequest) : Except TransportError HostResponse × DiskHost :=
  if r.op ≠ Protocol.loadOp then
    (.ok (.failure Protocol.high r.id (.unknownOperation r.op)), h)
  else
    match h.load r.path? with
    | (.ok d, h) => (.ok (.success Protocol.high r.id (.obj [("document", d.toValue)])), h)
    | (.error e, h) => (.ok (.failure Protocol.high r.id (.storageFailure e.message)), h)

def submit (h : DiskHost) (r : HostRequest) : Except TransportError Unit × DiskHost :=
  if r.op ≠ Protocol.persistOp then (.error (.host (.unknownOperation r.op)), h)
  else
    let (result, h) := h.persist r
    let message := match result with
      | .ok () => .persisted r.id
      | .error e => .persistFailed r.id e
    (.ok (), { h with inbox := h.inbox ++ [message] })

/-- The next message. The file is looked at only when nothing else is waiting. -/
def receive (h : DiskHost) : Except TransportError (Option HostMessage) × DiskHost :=
  match h.inbox with
  | m :: rest => (.ok (some m), { h with inbox := rest })
  | [] =>
    match h.externalEdit? with
    | none => (.ok none, h)
    | some d => (.ok (some (.changed d)), { h with lastDigest := some d.digest })

theorem externalEdit?_inbox (h : DiskHost) (inbox : List HostMessage) :
    ({ h with inbox } : DiskHost).externalEdit? = h.externalEdit? := rfl

theorem externalEdit?_after {h : DiskHost} {d : Document} (he : h.externalEdit? = some d) :
    ({ h with lastDigest := some d.digest } : DiskHost).externalEdit? = none := by
  unfold externalEdit? at he ⊢
  split at he
  · simp at he
  · split at he
    · simp at he
    · rename_i hr
      simp only at hr ⊢
      rw [hr]
      split at he
      · simp at he
      · simp_all

instance : Transport DiskHost where
  request := request
  submit := submit
  receive := receive
  backlog h := h.inbox.length + if h.externalEdit?.isSome then 1 else 0
  backlog_receive h h' m e := by
    unfold receive at e
    split at e
    · rename_i hi
      simp only [Prod.mk.injEq, Except.ok.injEq, Option.some.injEq] at e
      obtain ⟨-, rfl⟩ := e
      rw [externalEdit?_inbox, hi]
      exact Nat.add_lt_add_right (Nat.lt_succ_self _) _
    · split at e
      · simp at e
      · rename_i hi _ d he
        simp only [Prod.mk.injEq, Except.ok.injEq, Option.some.injEq] at e
        obtain ⟨-, rfl⟩ := e
        rw [externalEdit?_after he, he]
        simp [hi]

end DiskHost

end ShellSettings
