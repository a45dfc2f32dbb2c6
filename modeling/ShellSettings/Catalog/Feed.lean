import ShellSettings.Json.Record

/-!
# Resource catalogs

A host publishes which resources exist, one feed for each kind. Only the ids
matter here; whatever else an entry says is carried along.
-/

namespace ShellSettings

inductive ResourceKind where
  | theme
  | iconPack
  | wallpaper
  | widget
deriving DecidableEq, Repr, Inhabited

namespace ResourceKind

def table : List (String × ResourceKind) :=
  [("theme", .theme), ("icon-pack", .iconPack), ("wallpaper", .wallpaper), ("widget", .widget)]

def name : ResourceKind → String
  | .theme => "theme"
  | .iconPack => "icon-pack"
  | .wallpaper => "wallpaper"
  | .widget => "widget"

def all : List ResourceKind := [.theme, .iconPack, .wallpaper, .widget]

def read {σ : Type} [Source σ] (s : σ) : Read ResourceKind := Read.name table s

end ResourceKind

/-- One resource; null metadata is none. -/
structure CatalogEntry where
  id : String
  metadata : Json := .null

structure Feed where
  kind : ResourceKind
  entries : List CatalogEntry

/-- A set of ids, listed in increasing order. -/
abbrev IdSet := Map Unit

def IdSet.ofList (ids : List String) : IdSet := Map.ofList (ids.map (·, ()))

variable {σ : Type} [Source σ]

namespace CatalogEntry

inductive Member where
  | id (s : String)
  | metadata (v : Json)

def Member.read (field : String) (s : σ) : Read Member :=
  match field with
  | "id" => .id <$> Read.text s
  | _ => .metadata <$> Read.json s

def record : Record σ Member where
  title := "struct CatalogEntry"
  fields := ["id", "metadata"]
  read := Member.read
  other := Record.passOver

def ofMembers (ms : List Member) : Read CatalogEntry := do
  let id ← Read.require "id" (ms.findSome? fun | .id s => some s | _ => none)
  return { id, metadata := (ms.findSome? fun | .metadata v => some v | _ => none).getD .null }

def read (s : σ) : Read CatalogEntry := do
  ofMembers (← record.ofMapOrSequence ["metadata"] s)

def toJson (e : CatalogEntry) : Json :=
  .obj (("id", .str e.id) :: match e.metadata with
    | .null => []
    | v => [("metadata", v)])

end CatalogEntry

namespace Feed

inductive Member where
  | kind (k : ResourceKind)
  | entries (es : List CatalogEntry)

def Member.read (field : String) (s : σ) : Read Member :=
  match field with
  | "kind" => .kind <$> ResourceKind.read s
  | _ => .entries <$> Read.list CatalogEntry.read s

def record : Record σ Member where
  title := "struct CatalogFeed"
  fields := ["kind", "entries"]
  read := Member.read
  other := Record.passOver

def ofMembers (ms : List Member) : Read Feed := do
  let kind ← Read.require "kind" (ms.findSome? fun | .kind k => some k | _ => none)
  let entries ← Read.require "entries" (ms.findSome? fun | .entries es => some es | _ => none)
  return { kind, entries }

def read (s : σ) : Read Feed := do ofMembers (← record.ofMapOrSequence [] s)

def ofText? (text : String) : Read Feed := readText read text

def ofIds (kind : ResourceKind) (ids : List String) : Feed := ⟨kind, ids.map fun id => { id }⟩

def ids (f : Feed) : IdSet := IdSet.ofList (f.entries.map (·.id))

def toJson (f : Feed) : Json :=
  .obj [("kind", .str f.kind.name), ("entries", .arr (f.entries.map CatalogEntry.toJson))]

end Feed

/-- The ids last published for each kind; nothing is known of a kind before its first feed. -/
structure Catalog where
  ids? : ResourceKind → Option IdSet

namespace Catalog

def empty : Catalog := ⟨fun _ => none⟩

def publish (c : Catalog) (kind : ResourceKind) (ids : IdSet) : Catalog :=
  ⟨fun k => if k = kind then some ids else c.ids? k⟩

def kinds (c : Catalog) : List ResourceKind := ResourceKind.all.filter fun k => (c.ids? k).isSome

/-- An id is admitted if its kind is unknown or lists it. -/
def admits (c : Catalog) (kind : ResourceKind) (id : String) : Bool :=
  match c.ids? kind with
  | none => true
  | some ids => ids.contains id

end Catalog

end ShellSettings
