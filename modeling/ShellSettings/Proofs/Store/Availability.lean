import ShellSettings.Proofs.Document.SlotLaws
import ShellSettings.Proofs.Store.CommandLaws
import ShellSettings.Proofs.Store.FreshIdLaws

/-!
# No store locks itself up

A commit is refused if something dangles in what is committed. Both documents of a
store are normalized and without dangling references all along, whatever is
loaded into it and whatever catalogs come, as long as only documents that it
handed out since the last catalog are taken for saved. So creating and deleting
instances, deleting collections and setting wallpapers are refused for reasons of
their own alone (`Run.mutations_available`).
-/

namespace ShellSettings

-- ---------------------------------------------------------------------------
-- Intact documents
-- ---------------------------------------------------------------------------

namespace Document

structure Intact (c : Catalog) (d : Document) : Prop where
  normalized : d.Normalized
  integral : d.dangling c = []

def HasInstance (d : Document) (widget id : String) : Prop :=
  ∃ w, d.widgets.get? widget = some w ∧ w.hasInstance id = true

theorem Normalized.instances_ne_empty {d : Document} {widget : String} {w : Widget}
    (hd : d.Normalized) (hw : d.widgets.get? widget = some w) : w.instances ≠ some ∅ := by
  intro hempty
  have hmap := congrArg (·.get? widget) (normalized_iff.mp hd)
  simp only [Map.get?_map, hw, Option.map_some, Option.some.injEq] at hmap
  have hnone : w.normalize.instances = none := by rw [Widget.normalize, hempty]; rfl
  rw [hmap, hempty] at hnone
  cases hnone

theorem intact_repair (c : Catalog) (d : Document) : (d.normalize.repair c).1.Intact c :=
  ⟨(normalized_normalize d).repair, dangling_repair _ _⟩

theorem Intact.retain_publish {c : Catalog} {d : Document} {kind : ResourceKind} {ids : IdSet}
    (h : d.Intact c) : (d.retain kind ids.contains).Intact (c.publish kind ids) :=
  ⟨h.normalized.retain, dangling_retain_publish h.integral⟩

end Document

namespace Store

variable {s t : Store} {l : Loaded} {d : Document} {operation widget id : String} {e : StoreError}

-- ---------------------------------------------------------------------------
-- What is refused
-- ---------------------------------------------------------------------------

theorem get_of_loaded (hl : s.loaded = some l) : s.get = .ok l.current := by
  simp [get, hl]

theorem commit_of_integral (operation : String) (hl : s.loaded = some l)
    (hd : d.dangling s.catalog = []) : ∃ t, s.commit operation d = .ok t := by
  simp only [commit, Document.dangling_normalize, hd, hl]
  split <;> exact ⟨_, rfl⟩

theorem createInstance_eq_error (hl : s.loaded = some l) (hd : l.current.dangling s.catalog = []) :
    (s.createInstance widget).1 = .error e ↔ e = .idsExhausted widget ∧
      ∀ n < IdSource.maxAttempts, l.current.HasInstance widget (s.ids.id (s.ids.drawn + n)) := by
  have htaken : ∀ id, (!((l.current.widgets.get? widget).map (·.hasInstance id)).getD false) =
      false ↔ l.current.HasInstance widget id := by
    intro id
    cases h : l.current.widgets.get? widget <;> simp [h, Document.HasInstance]
  have hnone := @IdSource.search_eq_none
    (fun id => !((l.current.widgets.get? widget).map (·.hasInstance id)).getD false)
    IdSource.maxAttempts s.ids
  simp only [htaken, IdSource.upcoming] at hnone
  simp only [createInstance, get_of_loaded hl, IdSource.fresh, ← hnone]
  generalize IdSource.search _ IdSource.maxAttempts s.ids = drawn
  obtain ⟨_ | id, ids⟩ := drawn
  · simp only [Except.error.injEq, and_true]
    exact eq_comm
  · let next : Document := { l.current with
      widgets := l.current.widgets.change widget {} fun w =>
        { w with instances := some ((w.instances.getD ∅).insert id ∅) } }
    let drawn : Store := { s with ids }
    have hnext : next.dangling drawn.catalog = [] := hd
    have hdrawn : drawn.loaded = some l := hl
    obtain ⟨t, ht⟩ := commit_of_integral "create_instance" hdrawn hnext
    simp only [drawn, next] at ht
    simp [ht]

theorem deleteInstance_eq_error (hl : s.loaded = some l) (hd : l.current.dangling s.catalog = []) :
    s.deleteInstance widget id = .error e ↔
      e = .unknownInstance widget id ∧ ¬ l.current.HasInstance widget id := by
  simp only [deleteInstance, get_of_loaded hl, ok_bind, Document.HasInstance]
  cases hw : l.current.widgets.get? widget with
  | none => simpa using eq_comm
  | some w =>
    by_cases hi : w.hasInstance id
    · let next : Document := { l.current with
        widgets := l.current.widgets.insert widget
          { w with instances := w.instances.map (·.erase id) } }
      have hnext : next.dangling s.catalog = [] := hd
      obtain ⟨t, ht⟩ := commit_of_integral "delete_instance" hl hnext
      simp only [next] at ht
      simp [hi, ht]
    · simpa [hi] using eq_comm

theorem deleteCollection_eq_error (hl : s.loaded = some l)
    (hd : l.current.dangling s.catalog = []) :
    s.deleteCollection id = .error e ↔
      e = .unknownCollection id ∧ l.current.hasCollection id = false := by
  simp only [deleteCollection, get_of_loaded hl, ok_bind]
  cases hc : l.current.hasCollection id with
  | false => simpa [Document.deleteCollection?, hc] using eq_comm
  | true =>
    have hdelete : ∃ next cleared, l.current.deleteCollection? id = some (next, cleared) :=
      ⟨_, _, if_pos hc⟩
    obtain ⟨next, cleared, hdelete⟩ := hdelete
    obtain ⟨t, ht⟩ := commit_of_integral "delete_collection" hl
      (Document.dangling_deleteCollection hd hdelete)
    simp [hdelete, ht]

theorem setWallpaper_eq_error {slot : Slot} {id : Option String} (hl : s.loaded = some l)
    (hd : l.current.dangling s.catalog = []) :
    s.setWallpaper slot id = .error e ↔
      ∃ c, id = some c ∧ e = .unknownCollection c ∧ l.current.hasCollection c = false := by
  simp only [setWallpaper, get_of_loaded hl, ok_bind]
  cases h : id.filter (fun id => !l.current.hasCollection id) with
  | some c =>
    obtain ⟨rfl, hmissing⟩ := Option.filter_eq_some_iff.mp h
    have hmissing : l.current.hasCollection c = false := by simpa using hmissing
    simpa [hmissing] using eq_comm
  | none =>
    have hknown : ∀ c, id = some c → l.current.hasCollection c = true := by
      rintro c rfl
      simpa [Option.filter] using h
    obtain ⟨t, ht⟩ := commit_of_integral "set_wallpaper_collection" hl
      (Document.dangling_setSlot slot hd hknown)
    simp only [ht, reduceCtorEq, false_iff, not_exists]
    rintro c ⟨hc, -, hmissing⟩
    simp [hknown c hc] at hmissing

-- ---------------------------------------------------------------------------
-- Both documents stay intact
-- ---------------------------------------------------------------------------

def Intact (s : Store) : Prop :=
  ∀ l, s.loaded = some l → l.current.Intact s.catalog ∧ l.snapshot.Intact s.catalog

-- ---------------------------------------------------------------------------
-- Catalogs change by catalogs alone
-- ---------------------------------------------------------------------------

theorem catalog_execute (s : Store) (c : StoreCommand) :
    (∃ feed, c = .applyCatalog feed) ∨ (s.execute c).2.catalog = s.catalog := by
  rcases c.builds_cases with hc | ⟨d, rfl | rfl⟩ | ⟨d, rfl⟩ | rfl | hfeed
  · exact .inr (concluded_execute hc).catalog
  · exact .inr rfl
  · exact .inr rfl
  · cases hl : s.loaded <;> simp [execute, markSaved, settle, hl]
  · cases hl : s.loaded with
    | none => simp [execute, restore, settle, hl]
    | some l => cases hd : l.isDirty <;> simp [execute, restore, settle, hl, hd]
  · exact .inl hfeed

end Store

-- ---------------------------------------------------------------------------
-- Runs
-- ---------------------------------------------------------------------------

namespace StoreCommand

/-- Only a document that was read since the last catalog is taken for saved. -/
def SavesRead (read : List Document) : StoreCommand → Prop
  | .markSaved d => d ∈ read
  | _ => True

/-- What counts as read after a command: with a catalog all that was read before is old. -/
def stillRead (read : List Document) : StoreCommand → List Document
  | .applyCatalog _ => []
  | _ => read

theorem mem_of_mem_stillRead {read : List Document} {c : StoreCommand} {d : Document}
    (h : d ∈ c.stillRead read) : d ∈ read := by
  cases c
  case applyCatalog => cases h
  all_goals exact h

end StoreCommand

namespace Store

/-- The stores that can be reached, each with the documents read on the way since the last
catalog. -/
inductive Run (start : Store) : List Document → Store → Prop
  | start : Run start [] start
  | read {read s d} (run : Run start read s) (h : s.get = .ok d) : Run start (d :: read) s
  | execute {read s} (c : StoreCommand) (run : Run start read s) (h : c.SavesRead read) :
    Run start (c.stillRead read) (s.execute c).2

variable {start s : Store} {read : List Document} {l : Loaded}

theorem Intact.execute {c : StoreCommand} (h : s.Intact) (hread : ∀ d ∈ read, d.Intact s.catalog)
    (hc : c.SavesRead read) : (s.execute c).2.Intact := by
  refine Both.execute (P := Document.Intact) h (fun d _ => Document.intact_repair _ d) ?_
    (fun _ _ _ normalized dangling _ => ⟨normalized, dangling⟩) fun _ _ _ _ hd => hd.retain_publish
  rintro d rfl
  exact hread d hc

theorem Run.intact (unloaded : start.loaded = none) (run : Run start read s) :
    s.Intact ∧ ∀ d ∈ read, d.Intact s.catalog := by
  induction run with
  | start => exact ⟨fun l hl => by simp [unloaded] at hl, nofun⟩
  | read run h ih =>
    obtain ⟨l, hl, rfl⟩ := get_eq_ok h
    exact ⟨ih.1, List.forall_mem_cons.mpr ⟨(ih.1 l hl).1, ih.2⟩⟩
  | @execute read s c run h ih =>
    refine ⟨ih.1.execute ih.2 h, ?_⟩
    rcases catalog_execute s c with ⟨feed, rfl⟩ | hcatalog
    · exact nofun
    · rw [hcatalog]
      exact fun d hd => ih.2 d (StoreCommand.mem_of_mem_stillRead hd)

/-- Wherever a run from an unloaded store leads, no container of instances is empty, what is shown
as wallpaper is there, and each of four edits fails for one reason alone. -/
theorem Run.mutations_available (unloaded : start.loaded = none) (run : Run start read s)
    (hl : s.loaded = some l) :
    (∀ d, d = l.current ∨ d = l.snapshot → ∀ widget w, d.widgets.get? widget = some w →
      w.instances ≠ some ∅) ∧
    (∀ monitor workspace id, s.activeWallpaper monitor workspace = .ok (some id) →
      l.current.hasCollection id = true) ∧
    (∀ widget e, (s.createInstance widget).1 = .error e ↔ e = .idsExhausted widget ∧
      ∀ n < IdSource.maxAttempts, l.current.HasInstance widget (s.ids.id (s.ids.drawn + n))) ∧
    (∀ widget id e, s.deleteInstance widget id = .error e ↔
      e = .unknownInstance widget id ∧ ¬ l.current.HasInstance widget id) ∧
    (∀ id e, s.deleteCollection id = .error e ↔
      e = .unknownCollection id ∧ l.current.hasCollection id = false) ∧
    ∀ slot id e, s.setWallpaper slot id = .error e ↔
      ∃ c, id = some c ∧ e = .unknownCollection c ∧ l.current.hasCollection c = false := by
  obtain ⟨current, snapshot⟩ := (run.intact unloaded).1 l hl
  have integral := current.integral
  refine ⟨?_, ?_, fun _ _ => createInstance_eq_error hl integral,
    fun _ _ _ => deleteInstance_eq_error hl integral,
    fun _ _ => deleteCollection_eq_error hl integral,
    fun _ _ _ => setWallpaper_eq_error hl integral⟩
  · rintro d (rfl | rfl) widget w hw
    · exact current.normalized.instances_ne_empty hw
    · exact snapshot.normalized.instances_ne_empty hw
  · intro monitor workspace id h
    simp only [activeWallpaper, get_of_loaded hl, ok_bind, pure_eq_ok, Except.ok.injEq,
      Option.map_eq_some_iff] at h
    obtain ⟨⟨_, level⟩, h, rfl⟩ := h
    obtain ⟨slot, hslot⟩ := Document.slot_of_activeWallpaper h
    exact (Document.dangling_eq_nil.mp integral).1 slot _ hslot

/-- A theme that no catalog lists, a collection that is not there and an empty container come with
the document of the host; an instance is created and taken back. -/
theorem mutations_available_after_restore :
    ∃ start read s l, start.loaded = none ∧ Run start read s ∧ s.loaded = some l ∧
      l.current.themes = ["A"] ∧ l.current.wallpaper = none ∧
      s.activeWallpaper "left" none = .ok (some "new") ∧ l.current.hasCollection "new" = true ∧
      s.deleteCollection "gone" = .error (.unknownCollection "gone") ∧
      s.deleteInstance "dock" "new" = .error (.unknownInstance "dock" "new") ∧
      ∀ e, (s.createInstance "dock").1 ≠ .error e := by
  let start : Store := { ids := ⟨fun _ => "new", 0⟩ }
  let catalog := Catalog.empty.publish .theme (Feed.ofIds .theme ["A"]).ids
  let shown : Document := {
    widgets := Map.ofList [("dock", {})], themes := ["A"]
    monitors := Map.ofList [("left", { wallpaper := some "new" })]
    collections := [{ id := "new", name := "Mountains" }] }
  have unloaded : Run start [] start := .start
  have listed := unloaded.execute (.applyCatalog (Feed.ofIds .theme ["A"])) trivial
  have loaded := listed.execute (.load {
    widgets := Map.ofList [("dock", { instances := some ∅ })]
    wallpaper := some "gone", themes := ["A", "B"] }) trivial
  have created := loaded.execute (.createCollection "Mountains" []) trivial
  have assigned : Run start [] {
      loaded := some ⟨shown, { widgets := Map.ofList [("dock", {})], themes := ["A"] }, 2, true⟩
      catalog, ids := ⟨fun _ => "new", 1⟩ } :=
    created.execute (.setWallpaper (.monitor "left") (some "new")) trivial
  have edited := (assigned.read rfl).execute (.createInstance "dock") trivial
  have saved := edited.execute (.markSaved shown) List.mem_cons_self
  have restored : Run start [shown] {
      loaded := some ⟨shown, shown, 4, false⟩, catalog, ids := ⟨fun _ => "new", 2⟩ } :=
    saved.execute .restore trivial
  have absent : ∀ id, ¬ shown.HasInstance "dock" id := by
    rintro id ⟨w, hw, hi⟩
    cases hw
    cases hi
  obtain ⟨-, hshown, hcreate, hdelete, hcollection, -⟩ := restored.mutations_available rfl rfl
  exact ⟨start, _, _, _, rfl, restored, rfl, rfl, rfl, rfl, hshown "left" none "new" rfl,
    (hcollection _ _).mpr ⟨rfl, rfl⟩, (hdelete _ _ _).mpr ⟨rfl, absent "new"⟩,
    fun e h => absent _ (((hcreate "dock" e).mp h).2 0 (by decide))⟩

end Store

end ShellSettings
