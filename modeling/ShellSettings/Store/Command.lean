import ShellSettings.Store.Basic

/-!
# Store commands

What can be done to a store, as data, so that a run is a list of commands. A
command either succeeds with a reply or fails; a failed one changes neither
document.
-/

namespace ShellSettings

inductive StoreCommand where
  | load (d : Document)
  -- Another writer has replaced the document.
  | replace (d : Document)
  | markSaved (d : Document)
  | restore
  | patch (path : String) (value : Json)
  | patchAt (path : Path) (value : Json)
  | createInstance (widget : String)
  | deleteInstance (widget id : String)
  | createCollection (name : String) (resources : List String)
  | setResources (id : String) (resources : List String)
  | deleteCollection (id : String)
  | setWallpaper (slot : Slot) (id : Option String)
  | applyCatalog (feed : Feed)

inductive StoreReply where
  | done
  | id (id : String)
  | references (rs : List Reference)

namespace Store

/-- Goes on with the new store, or stays where it is on an error. -/
def settle (s : Store) : Except StoreError Store → Except StoreError StoreReply × Store
  | .ok next => (.ok .done, next)
  | .error e => (.error e, s)

def execute (s : Store) : StoreCommand → Except StoreError StoreReply × Store
  | .load d | .replace d =>
    let (s, rs) := s.install d
    (.ok (.references rs), s)
  | .markSaved d => s.settle (s.markSaved d)
  | .restore => s.settle s.restore
  | .patch path v => s.settle (s.patch path v)
  | .patchAt p v => s.settle (s.patchAt p v)
  | .createInstance w =>
    let (id, s) := s.createInstance w
    (id.map .id, s)
  | .deleteInstance w id => s.settle (s.deleteInstance w id)
  | .createCollection name rs =>
    let (id, s) := s.createCollection name rs
    (id.map .id, s)
  | .setResources id rs => s.settle (s.setResources id rs)
  | .deleteCollection id =>
    match s.deleteCollection id with
    | .ok (next, rs) => (.ok (.references rs), next)
    | .error e => (.error e, s)
  | .setWallpaper slot id => s.settle (s.setWallpaper slot id)
  | .applyCatalog feed =>
    let (s, rs) := s.applyCatalog feed
    (.ok (.references rs), s)

def run (s : Store) (commands : List StoreCommand) : Store :=
  commands.foldl (fun s c => (s.execute c).2) s

end Store

end ShellSettings
