import ShellSettings.Document.Cascade
import ShellSettings.Document.Reference
import ShellSettings.Store.FreshId
import ShellSettings.Store.RestartPolicy

/-!
# The settings store

The store holds the current document and a snapshot: the one last loaded or
saved, which unsaved edits are measured against. An edit builds a new document
and commits it as a whole, or fails and changes nothing. A committed document is
normalized and has no dangling references.

A revision number goes up with every change of the current document.
-/

namespace ShellSettings

inductive StoreError where
  | invalidPath (e : PathError)
  -- A patch with something other than an object.
  | patchNotObject (path : Path) (found : Json)
  | pathLeadsNowhere (path : Path)
  -- A patch of something other than an object.
  | targetNotObject (path : Path) (found : Json)
  -- The patched value is no document.
  | patchDoesNotFit (path : Path) (e : ReadError)
  | wouldDangle (operation : String) (reference : Reference)
  | unloaded
  | unknownInstance (widget id : String)
  | unknownCollection (id : String)
  | idsExhausted (scope : String)

def StoreError.message : StoreError → String
  | .invalidPath e => "Validation error: " ++ e.message
  | .patchNotObject p v =>
    "Validation error: patch value for '" ++ p.display ++ "' must be an object, got " ++ v.kind
  | .pathLeadsNowhere p =>
    "Validation error: path '" ++ p.display ++ "' does not resolve to an existing subtree"
  | .targetNotObject p v =>
    "Validation error: path '" ++ p.display ++ "' addresses a " ++ v.kind ++ ", not an object"
  | .patchDoesNotFit p e =>
    "Validation error: patch at '" ++ p.display ++ "' does not fit the document: " ++ e.message
  | .wouldDangle operation r =>
    "Validation error: " ++ operation ++ " would leave a dangling reference: " ++ r.display
  | .unloaded => "settings have not been loaded yet"
  | .unknownInstance w id => "unknown instance '" ++ id ++ "' of widget '" ++ w ++ "'"
  | .unknownCollection id => "unknown collection '" ++ id ++ "'"
  | .idsExhausted scope =>
    "could not generate a unique id for '" ++ scope ++ "' after " ++
      toString IdSource.maxAttempts ++ " attempts"

structure Loaded where
  current : Document
  snapshot : Document
  revision : Nat
  -- References were dropped from both documents that the host still has.
  repaired : Bool

/-- State of the user interface: kept beside the document and never saved. -/
structure ViewState where
  -- The settings page that is open.
  route : Option String := none
  -- Accent colours taken from the system.
  palette : Option Json := none

structure Store where
  loaded : Option Loaded := none
  view : ViewState := {}
  restartRequired : Bool := false
  policy : RestartPolicy := .builtIn
  catalog : Catalog := .empty
  ids : IdSource

namespace Loaded

def isDirty (l : Loaded) : Bool := !l.current.same l.snapshot

end Loaded

namespace Store

-- ---------------------------------------------------------------------------
-- Reading
-- ---------------------------------------------------------------------------

def get (s : Store) : Except StoreError Document :=
  match s.loaded with
  | none => .error .unloaded
  | some l => .ok l.current

def snapshot (s : Store) : Except StoreError Document :=
  match s.loaded with
  | none => .error .unloaded
  | some l => .ok l.snapshot

def revision (s : Store) : Option Nat := s.loaded.map (·.revision)

def isDirty (s : Store) : Bool :=
  match s.loaded with
  | none => false
  | some l => l.isDirty

/-- Whether the host's document differs from the current one: there are edits, or references
were dropped that the host still has. -/
def needsSave (s : Store) : Bool :=
  s.isDirty || match s.loaded with
    | none => false
    | some l => l.repaired

def effective (s : Store) (p : Placement) : Except StoreError Effective :=
  return (← s.get).effective p

def effectiveAll (s : Store) (widget : String) (monitor : Option String) :
    Except StoreError (List Effective) :=
  return (← s.get).effectiveAll widget monitor

def activeWallpaper (s : Store) (monitor : String) (workspace : Option String) :
    Except StoreError (Option String) :=
  return ((← s.get).activeWallpaper monitor workspace).map (·.1)

-- ---------------------------------------------------------------------------
-- Loading and saving
-- ---------------------------------------------------------------------------

/-- Makes a document of the host both current document and snapshot, normalized and repaired.
Reports the references dropped. -/
def install (s : Store) (d : Document) : Store × List Reference :=
  let (d, dropped) := d.normalize.repair s.catalog
  ({ s with
      loaded := some {
        current := d
        snapshot := d
        revision := (s.revision.map (· + 1)).getD 0
        repaired := !dropped.isEmpty } },
    dropped)

def markSaved (s : Store) (d : Document) : Except StoreError Store :=
  match s.loaded with
  | none => .error .unloaded
  | some l => .ok { s with loaded := some { l with snapshot := d, repaired := false } }

def restore (s : Store) : Except StoreError Store :=
  match s.loaded with
  | none => .error .unloaded
  | some l =>
    if l.isDirty then
      .ok { s with loaded := some { l with current := l.snapshot, revision := l.revision + 1 } }
    else .ok s

-- ---------------------------------------------------------------------------
-- Editing
-- ---------------------------------------------------------------------------

/-- Makes a document current, if it refers to nothing that is missing. One that is the same as
the current document changes nothing. -/
def commit (s : Store) (operation : String) (d : Document) : Except StoreError Store :=
  let d := d.normalize
  match d.dangling s.catalog with
  | r :: _ => .error (.wouldDangle operation r)
  | [] =>
    match s.loaded with
    | none => .error .unloaded
    | some l =>
      if l.current.same d then .ok s
      else .ok { s with loaded := some { l with current := d, revision := l.revision + 1 } }

/-- The document with an object merged into the object at a path: its keys win, and nothing
inside them is merged. -/
def patched (d : Document) (p : Path) (value : Json) : Except StoreError Document := do
  let before := d.toValue
  match value with
  | .obj members =>
    match p.resolve before with
    | none => .error (.pathLeadsNowhere p)
    | some (.obj old) =>
      let merged := Blob.merge (Map.ofList old) (Map.ofList members)
      match p.replace? (.ofMap merged) before with
      | none => .error (.pathLeadsNowhere p)
      | some after =>
        match Document.ofJson? after with
        | .error e => .error (.patchDoesNotFit p e)
        | .ok next => .ok next
    | some target => .error (.targetNotObject p target)
  | _ => .error (.patchNotObject p value)

/-- Merges an object into the object at a path. Where the patch drops collections, the slots that
name them are cleared in the same commit. -/
def patchAt (s : Store) (p : Path) (value : Json) : Except StoreError Store := do
  let before ← s.get
  let next ← patched before p value
  let gone := before.removedCollections next
  let next := (next.clearSlots (gone.contains ·)).normalize
  let committed ← s.commit "patch" next
  match s.policy.changedPath before.toValue next.toValue with
  | some _ => return { committed with restartRequired := true }
  | none => return committed

def patch (s : Store) (path : String) (value : Json) : Except StoreError Store :=
  match Path.parse path with
  | .error e => .error (.invalidPath e)
  | .ok p => s.patchAt p value

/-- Adds an instance without settings to a widget, which need not have an entry yet. -/
def createInstance (s : Store) (widget : String) : Except StoreError String × Store :=
  match s.get with
  | .error e => (.error e, s)
  | .ok d =>
    let taken := fun id => ((d.widgets.get? widget).map (·.hasInstance id)).getD false
    let (id?, ids) := s.ids.fresh (fun id => !taken id)
    let s := { s with ids }
    match id? with
    | none => (.error (.idsExhausted widget), s)
    | some id =>
      let next := { d with
        widgets := d.widgets.change widget {} fun w =>
          { w with instances := some ((w.instances.getD ∅).insert id ∅) } }
      match s.commit "create_instance" next with
      | .error e => (.error e, s)
      | .ok s => (.ok id, s)

/-- Removes an instance, and the container of instances with the last one. -/
def deleteInstance (s : Store) (widget id : String) : Except StoreError Store := do
  let d ← s.get
  match d.widgets.get? widget with
  | none => .error (.unknownInstance widget id)
  | some w =>
    if w.hasInstance id then
      s.commit "delete_instance" { d with
        widgets := d.widgets.insert widget
          { w with instances := w.instances.map (·.erase id) } }
    else .error (.unknownInstance widget id)

def createCollection (s : Store) (name : String) (resources : List String) :
    Except StoreError String × Store :=
  match s.get with
  | .error e => (.error e, s)
  | .ok d =>
    let (id?, ids) := s.ids.fresh (fun id => !d.hasCollection id)
    let s := { s with ids }
    match id? with
    | none => (.error (.idsExhausted "collections"), s)
    | some id =>
      match s.commit "create_collection"
          { d with collections := d.collections ++ [{ id, name, resources }] } with
      | .error e => (.error e, s)
      | .ok s => (.ok id, s)

def changeFirst {α : Type} (p : α → Bool) (f : α → α) : List α → List α
  | [] => []
  | x :: xs => if p x then f x :: xs else x :: changeFirst p f xs

def setResources (s : Store) (id : String) (resources : List String) :
    Except StoreError Store := do
  let d ← s.get
  if d.hasCollection id then
    s.commit "set_collection_resources" { d with
      collections := changeFirst (·.id == id) (fun c => { c with resources }) d.collections }
  else .error (.unknownCollection id)

def deleteCollection (s : Store) (id : String) : Except StoreError (Store × List Reference) := do
  let d ← s.get
  match d.deleteCollection? id with
  | none => .error (.unknownCollection id)
  | some (next, cleared) => return (← s.commit "delete_collection" next, cleared)

def setWallpaper (s : Store) (slot : Slot) (id : Option String) : Except StoreError Store := do
  let d ← s.get
  match id.filter (fun id => !d.hasCollection id) with
  | some id => .error (.unknownCollection id)
  | none => s.commit "set_wallpaper_collection" (d.setSlot slot id)

/-- Remembers a catalog and drops the references that it does not list from both documents, so
that no later restore brings them back. Reports those dropped from the current document. -/
def applyCatalog (s : Store) (feed : Feed) : Store × List Reference :=
  let s := { s with catalog := s.catalog.publish feed.kind feed.ids }
  match s.loaded with
  | none => (s, [])
  | some l =>
    let (current, dropped) := l.current.prune feed.kind feed.ids
    let (snapshot, droppedFromSnapshot) := l.snapshot.prune feed.kind feed.ids
    let l := if dropped.isEmpty then l else { l with current, revision := l.revision + 1 }
    let l := if droppedFromSnapshot.isEmpty then l else { l with snapshot, repaired := true }
    ({ s with loaded := some l }, dropped)

end Store

end ShellSettings
