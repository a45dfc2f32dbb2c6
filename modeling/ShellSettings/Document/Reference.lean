import ShellSettings.Catalog.Feed
import ShellSettings.Document.Wallpaper

/-!
# References and their repair

A document refers to its own collections, through wallpaper slots, and to
resources that the host supplies: themes, icon packs and wallpapers. A reference
dangles if the collection is not in the document, or if the host has published
its kind without it. References are listed slots first, then by kind of
resource; repairing drops exactly those listed as dangling.
-/

namespace ShellSettings

inductive Reference where
  -- The collection that a slot names.
  | slot (slot : Slot) (collection : String)
  | theme (id : String)
  | iconPack (id : String)
  -- A resource of a collection.
  | wallpaper (collection resource : String)
deriving DecidableEq, Repr

def Reference.display : Reference → String
  | .slot .global id => "wallpaperCollection -> " ++ id
  | .slot (.monitor m) id => "monitors." ++ m ++ ".wallpaperCollection -> " ++ id
  | .slot (.workspace m w) id =>
    "monitors." ++ m ++ ".byWorkspace." ++ w ++ ".wallpaperCollection -> " ++ id
  | .theme id => "activeThemes -> " ++ id
  | .iconPack id => "activeIconPacks -> " ++ id
  | .wallpaper c id => "collections." ++ c ++ " -> " ++ id

namespace Document

/-- The slots that name a collection of which `gone` holds. -/
def slotsNaming (d : Document) (gone : String → Bool) : List Reference :=
  d.slots.filterMap fun s => (s.2.filter gone).map (.slot s.1)

def clearSlots (d : Document) (gone : String → Bool) : Document :=
  d.mapSlots fun id => id.filter (fun id => !gone id)

/-- The document without the first collection of that id, and without references to it. Nothing
if there is no such collection. -/
def deleteCollection? (d : Document) (id : String) : Option (Document × List Reference) :=
  if d.hasCollection id then
    let rest := { d with collections := d.collections.eraseP (·.id == id) }
    some (rest.clearSlots (· == id), rest.slotsNaming (· == id))
  else none

def removedCollections (before after : Document) : List String :=
  (before.collections.filter fun c => !after.hasCollection c.id).map (·.id)

/-- The resources of one kind that the document refers to. Widgets are no references: their
configuration outlives a widget that is missing for a while. -/
def resources (d : Document) : ResourceKind → List (String × Reference)
  | .theme => d.themes.map fun id => (id, .theme id)
  | .iconPack => d.iconPacks.map fun id => (id, .iconPack id)
  | .wallpaper => d.collections.flatMap fun c => c.resources.map fun id => (id, .wallpaper c.id id)
  | .widget => []

/-- The references of one kind to ids of which `keep` fails. -/
def unlisted (d : Document) (kind : ResourceKind) (keep : String → Bool) : List Reference :=
  ((d.resources kind).filter fun r => !keep r.1).map (·.2)

/-- Keeps the references of one kind to ids of which `keep` holds, in their order. -/
def retain (d : Document) (kind : ResourceKind) (keep : String → Bool) : Document :=
  match kind with
  | .theme => { d with themes := d.themes.filter keep }
  | .iconPack => { d with iconPacks := d.iconPacks.filter keep }
  | .wallpaper =>
    { d with
      collections := d.collections.map fun c => { c with resources := c.resources.filter keep } }
  | .widget => d

def dangling (d : Document) (c : Catalog) : List Reference :=
  d.slotsNaming (fun id => !d.hasCollection id) ++
    d.unlisted .theme (c.admits .theme) ++
    d.unlisted .iconPack (c.admits .iconPack) ++
    d.unlisted .wallpaper (c.admits .wallpaper)

def prune (d : Document) (kind : ResourceKind) (ids : IdSet) : Document × List Reference :=
  (d.retain kind ids.contains, d.unlisted kind ids.contains)

def collectionIds (d : Document) : IdSet := IdSet.ofList (d.collections.map (·.id))

/-- Drops every dangling reference: slots first, then each published kind. -/
def repair (d : Document) (c : Catalog) : Document × List Reference :=
  let existing := d.collectionIds
  let gone := fun id => !existing.contains id
  c.kinds.foldl (fun (d, dropped) kind =>
      match c.ids? kind with
      | none => (d, dropped)
      | some ids =>
        let (d, more) := d.prune kind ids
        (d, dropped ++ more))
    (d.clearSlots gone, d.slotsNaming gone)

end Document

end ShellSettings
