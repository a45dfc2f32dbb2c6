import Mathlib.Logic.Function.Basic
import ShellSettings.Proofs.Store.CollectionDeletion
import ShellSettings.Proofs.Store.PatchLaws

/-!
# Wallpaper levels

What is shown on a monitor and workspace is told by the slots of the document alone: of the
workspace, the monitor and the whole, the first that names a collection has it. Setting a slot
replaces it in that map from slots to collections and deleting a collection takes the
collection out of the map, whatever entries the document had on the way
(`Store.activeWallpaper_by_levels`).
-/

namespace ShellSettings

namespace Slot

variable {named : Slot → Option String} {monitor id : String} {workspace : Option String}
  {level : SlotLevel}

def asked (monitor : String) (workspace : Option String) : List (SlotLevel × Slot) :=
  (workspace.map fun w => (.workspace, .workspace monitor w)).toList ++
    [(.monitor, .monitor monitor), (.global, .global)]

def shown (named : Slot → Option String) (monitor : String) (workspace : Option String) :
    Option (String × SlotLevel) :=
  (asked monitor workspace).findSome? fun e => (named e.2).map (·, e.1)

theorem shown_eq_some_iff : shown named monitor workspace = some (id, level) ↔
    ∃ front slot back, asked monitor workspace = front ++ (level, slot) :: back ∧
      named slot = some id ∧ ∀ e ∈ front, named e.2 = none := by
  rw [shown, List.findSome?_eq_some_iff]
  constructor
  · rintro ⟨front, ⟨level', slot⟩, back, hasked, hslot, hfront⟩
    obtain ⟨id', hid, heq⟩ := Option.map_eq_some_iff.mp hslot
    cases heq
    exact ⟨front, slot, back, hasked, hid, fun e he => Option.map_eq_none_iff.mp (hfront e he)⟩
  · rintro ⟨front, slot, back, hasked, hslot, hfront⟩
    refine ⟨front, (level, slot), back, hasked, by simp [hslot], fun e he => ?_⟩
    exact Option.map_eq_none_iff.mpr (hfront e he)

theorem shown_filter_eq_some_iff {gone : String} :
    shown (fun slot => (named slot).filter (· != gone)) monitor workspace = some (id, level) ↔
      ∃ front slot back, asked monitor workspace = front ++ (level, slot) :: back ∧
        named slot = some id ∧ id ≠ gone ∧
        ∀ e ∈ front, ∀ other, named e.2 = some other → other = gone := by
  simp [shown_eq_some_iff, Option.filter_eq_none_iff, Option.filter_eq_some_iff, and_assoc]

end Slot

namespace Document

variable {d e : Document} {slot : Slot}

theorem activeWallpaper_eq_shown (d : Document) (monitor : String) (workspace : Option String) :
    d.activeWallpaper monitor workspace = Slot.shown d.slot monitor workspace := by
  cases workspace with
  | none =>
    cases h : d.slot (.monitor monitor) <;> cases h' : d.slot .global <;>
      simp [activeWallpaper, Slot.shown, Slot.asked, h, h']
  | some w =>
    cases h : d.slot (.workspace monitor w) <;> cases h' : d.slot (.monitor monitor) <;>
      cases h'' : d.slot .global <;>
      simp [activeWallpaper, Slot.shown, Slot.asked, h, h', h'']

-- ---------------------------------------------------------------------------
-- Slots in writing
-- ---------------------------------------------------------------------------

theorem string?_ofOption (id : Option String) : (Json.ofOption id).string? = id := by
  cases id <;> rfl

theorem string?_at?_path : (d.toJson.at? slot.path).bind Json.string? = d.slot slot := by
  have hmonitors : d.toJson.get? "monitors" = some (d.monitors.toJson Monitor.toJson) := rfl
  cases slot with
  | global => exact string?_ofOption d.wallpaper
  | monitor m =>
    simp only [Slot.path, Json.at?, hmonitors, Option.bind_some, Map.get?_written, Document.slot]
    cases d.monitors.get? m with
    | none => rfl
    | some monitor => exact string?_ofOption monitor.wallpaper
  | workspace m w =>
    simp only [Slot.path, Json.at?, hmonitors, Option.bind_some, Map.get?_written, Document.slot]
    cases d.monitors.get? m with
    | none => rfl
    | some monitor =>
      have hworkspaces : monitor.toJson.get? "byWorkspace" =
          some (monitor.workspaces.toJson Workspace.toJson) := rfl
      simp only [Option.map_some, Option.bind_some, hworkspaces, Map.get?_written]
      cases monitor.workspaces.get? w with
      | none => rfl
      | some workspace => exact string?_ofOption workspace.wallpaper

theorem slot_of_same (h : d.same e = true) : d.slot = e.slot := by
  funext slot
  have hrel : Json.SameIfAny (d.toJson.at? slot.path) (e.toJson.at? slot.path) := Json.rel_at? h
  rw [← string?_at?_path, ← string?_at?_path]
  generalize d.toJson.at? slot.path = a, e.toJson.at? slot.path = b at hrel
  cases hrel with
  | none => rfl
  | @some v w hvw =>
    -- A text is the same as itself only, and nothing else is the same as a text.
    cases v <;> cases w <;> simp_all [Json.same, Json.string?]

end Document

namespace Store

variable {s t : Store} {l : Loaded} {d : Document} {operation : String}

/-- Whether it becomes the current document or is the same as that, what is committed has the slots
of the document that is current then. -/
theorem slot_of_commit (h : s.commit operation d = .ok t) :
    ∃ after, t.get = .ok after ∧ after.slot = d.slot := by
  obtain ⟨-, l, -, rfl⟩ := commit_eq_ok.mp h
  refine ⟨_, rfl, ?_⟩
  have hnormalize : d.normalize.slot = d.slot := by
    funext slot
    cases slot <;> rfl
  unfold Loaded.committed
  split
  · rename_i hsame
    exact (Document.slot_of_same hsame).trans hnormalize
  · exact hnormalize

theorem slot_of_setWallpaper {slot : Slot} {id : Option String} (hl : s.loaded = some l)
    (h : s.setWallpaper slot id = .ok t) :
    ∃ after, t.get = .ok after ∧ after.slot = Function.update l.current.slot slot id := by
  simp only [setWallpaper, get_of_loaded hl, ok_bind] at h
  split at h
  · cases h
  · obtain ⟨after, hget, hslots⟩ := slot_of_commit h
    refine ⟨after, hget, hslots.trans ?_⟩
    funext slot'
    rw [Document.slot_setSlot, Function.update_apply]

theorem slot_of_deleteCollection {id : String} {cleared : List Reference}
    (hl : s.loaded = some l) (h : s.deleteCollection id = .ok (t, cleared)) :
    ∃ after, t.get = .ok after ∧
      after.slot = fun slot => (l.current.slot slot).filter (· != id) := by
  simp only [deleteCollection, get_of_loaded hl, ok_bind] at h
  split at h
  · cases h
  · rename_i next _ hnext
    obtain ⟨committed, hcommit, h⟩ := bind_eq_ok h
    cases h
    obtain ⟨hid, rfl, -⟩ := Document.deleteCollection?_eq_some.mp hnext
    obtain ⟨after, hget, hslots⟩ := slot_of_commit hcommit
    exact ⟨after, hget, hslots.trans (funext (Document.losesCollection_withoutFirst hid).slots)⟩

/-- In every store with a document, what is shown on a monitor and workspace is what the first slot
names that is asked and names anything. A slot that is set replaces the old one in that, for every
monitor and workspace, and a collection that is deleted is taken out of it: the next slot that names
another is what is shown then. -/
theorem activeWallpaper_by_levels (hl : s.loaded = some l) :
    (∀ monitor workspace,
      l.current.activeWallpaper monitor workspace =
        Slot.shown l.current.slot monitor workspace ∧
      s.activeWallpaper monitor workspace =
        .ok ((Slot.shown l.current.slot monitor workspace).map (·.1))) ∧
    (∀ slot id t, s.setWallpaper slot id = .ok t → ∃ after, t.get = .ok after ∧
      ∀ monitor workspace, after.activeWallpaper monitor workspace =
        Slot.shown (Function.update l.current.slot slot id) monitor workspace) ∧
    ∀ gone t cleared, s.deleteCollection gone = .ok (t, cleared) → ∃ after, t.get = .ok after ∧
      ∀ monitor workspace,
        after.activeWallpaper monitor workspace =
          Slot.shown (fun slot => (l.current.slot slot).filter (· != gone)) monitor workspace ∧
        ∀ id level, after.activeWallpaper monitor workspace = some (id, level) ↔
          ∃ front slot back, Slot.asked monitor workspace = front ++ (level, slot) :: back ∧
            l.current.slot slot = some id ∧ id ≠ gone ∧
            ∀ e ∈ front, ∀ other, l.current.slot e.2 = some other → other = gone := by
  refine ⟨fun monitor workspace => ⟨Document.activeWallpaper_eq_shown _ _ _, ?_⟩, ?_, ?_⟩
  · rw [activeWallpaper, get_of_loaded hl, ok_bind, Document.activeWallpaper_eq_shown]
    rfl
  · intro slot id t h
    obtain ⟨after, hget, hslots⟩ := slot_of_setWallpaper hl h
    refine ⟨after, hget, fun monitor workspace => ?_⟩
    rw [Document.activeWallpaper_eq_shown, hslots]
  · intro gone t cleared h
    obtain ⟨after, hget, hslots⟩ := slot_of_deleteCollection hl h
    refine ⟨after, hget, fun monitor workspace => ?_⟩
    rw [Document.activeWallpaper_eq_shown, hslots]
    exact ⟨rfl, fun id level => Slot.shown_filter_eq_some_iff⟩

def fjordsOverDunes : Document where
  wallpaper := some "dunes"
  collections := [{ id := "fjords", name := "Fjords" }, { id := "dunes", name := "Dunes" }]
  monitors := Map.ofList [("M1", {
    wallpaper := some "fjords"
    workspaces := Map.ofList [("ws1", { wallpaper := some "fjords" })] })]

/-- A workspace is set of which the document has no monitor, and both levels that name the fjords
are passed over once these are deleted. -/
theorem activeWallpaper_by_levels_fjords :
    let s := ({ ids := ⟨fun _ => "new", 0⟩ } : Store).run [.load fjordsOverDunes]
    (∃ t after, s.setWallpaper (.workspace "M2" "ws1") (some "fjords") = .ok t ∧
      t.get = .ok after ∧
      after.activeWallpaper "M2" (some "ws1") = some ("fjords", .workspace) ∧
      after.activeWallpaper "M2" (some "ws2") = some ("dunes", .global)) ∧
    ∃ t cleared after, s.deleteCollection "fjords" = .ok (t, cleared) ∧ t.get = .ok after ∧
      after.activeWallpaper "M1" (some "ws1") = some ("dunes", .global) := by
  intro s
  obtain ⟨-, sets, deletes⟩ := activeWallpaper_by_levels (s := s) rfl
  constructor
  · obtain ⟨after, hget, hshown⟩ := sets (.workspace "M2" "ws1") (some "fjords") _ rfl
    exact ⟨_, after, rfl, hget, (hshown ..).trans rfl, (hshown ..).trans rfl⟩
  · obtain ⟨after, hget, hshown⟩ := deletes "fjords" _ _ rfl
    exact ⟨_, _, after, rfl, hget, (hshown ..).1.trans rfl⟩

end Store

end ShellSettings
