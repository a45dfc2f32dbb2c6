import ShellSettings.Proofs.Store.Lasting
import ShellSettings.Proofs.Store.Revisions

/-!
# Deleting a collection

Nothing keeps two collections of a document from having one id. Deleting takes the
first of them, clears every slot that names the id, and leaves the others of the
list. So an id is gone from the document only if it stood there once, while no slot
names it in any case (`Store.Reached.deleteCollection_takes_first`).
-/

namespace ShellSettings

namespace Document

variable {d after : Document} {id : String} {cleared : List Reference}

/-- The slots that a document has entries for: the global one, then each monitor's, followed by
those of its workspaces. -/
def places (d : Document) : List Slot :=
  .global :: d.monitors.entries.flatMap fun m =>
    .monitor m.1 :: m.2.workspaces.entries.map fun w => .workspace m.1 w.1

theorem slots_eq_map_places : d.slots = d.places.map fun slot => (slot, d.slot slot) := by
  simp only [slots, places, List.map_cons, List.map_flatMap, List.map_map]
  congr 1
  refine List.flatMap_congr fun m hm => ?_
  have hmonitor : d.monitors.get? m.1 = some m.2 := Map.mem_entries.mp hm
  simp only [monitorSlots, slot, hmonitor, Option.bind_some]
  congr 1
  refine List.map_congr_left fun w hw => ?_
  have hworkspace : m.2.workspaces.get? w.1 = some w.2 := Map.mem_entries.mp hw
  simp [hmonitor, hworkspace]

theorem slotsNaming_eq_map_places : d.slotsNaming (· == id) =
    (d.places.filter fun slot => d.slot slot = some id).map (.slot · id) := by
  rw [slotsNaming, slots_eq_map_places, List.filterMap_map, ← List.filterMap_eq_map,
    ← List.filterMap_eq_filter, List.filterMap_filterMap]
  congr 1
  funext slot
  cases h : d.slot slot with
  | none => simp [h, Option.guard]
  | some id' => by_cases hid : id' = id <;> simp [h, hid, Option.filter, Option.guard]

def uncollected (d : Document) : Document :=
  { d.clearSlots fun _ => true with collections := [] }

/-- What the deletion of a collection leaves: the first of the id is gone from the list and the id
from the slots, and nothing else has changed. -/
structure LosesCollection (before : Document) (id : String) (after : Document) : Prop where
  collections : ∃ front c back, before.collections = front ++ c :: back ∧
    (∀ e ∈ front, e.id ≠ id) ∧ c.id = id ∧ after.collections = front ++ back
  slots : ∀ slot, after.slot slot = (before.slot slot).filter (· != id)
  rest : after.uncollected = before.uncollected

theorem LosesCollection.hasCollection_iff (h : d.LosesCollection id after) :
    after.hasCollection id = true ↔ 1 < d.collections.countP (·.id == id) := by
  obtain ⟨front, c, back, hbefore, hfront, hc, hafter⟩ := h.collections
  -- The one that goes is the first, so all others of the id stand behind it.
  have hnone : front.countP (·.id == id) = 0 := by simpa [List.countP_eq_zero] using hfront
  have hback : 1 < d.collections.countP (·.id == id) ↔ 0 < back.countP (·.id == id) := by
    rw [hbefore, List.countP_append, List.countP_cons_of_pos (by simpa using hc), hnone]
    omega
  rw [hback, List.countP_pos_iff, Document.hasCollection_iff, hafter]
  simp only [List.mem_append, beq_iff_eq]
  constructor
  · rintro ⟨e, he | he, hid⟩
    · exact absurd hid (hfront e he)
    · exact ⟨e, he, hid⟩
  · rintro ⟨e, he, hid⟩
    exact ⟨e, .inr he, hid⟩

/-- The documents differ in how many collections they have. -/
theorem LosesCollection.same_eq_false (h : d.LosesCollection id after) : d.same after = false := by
  obtain ⟨front, c, back, hbefore, -, -, hafter⟩ := h.collections
  refine Bool.eq_false_iff.mpr fun hsame => ?_
  have hlength := congrArg List.length (collections_of_same hsame)
  simp only [List.length_map, hbefore, hafter, List.length_append, List.length_cons] at hlength
  omega

def withoutFirst (d : Document) (id : String) : Document :=
  { d with collections := d.collections.eraseP (·.id == id) }.clearSlots (· == id)

theorem deleteCollection?_eq_some : d.deleteCollection? id = some (after, cleared) ↔
    d.hasCollection id = true ∧ after = d.withoutFirst id ∧ cleared = d.slotsNaming (· == id) := by
  unfold deleteCollection?
  split
  · rename_i hid
    simp only [Option.some.injEq, Prod.mk.injEq, hid, true_and]
    exact and_congr eq_comm eq_comm
  · simp [*]

theorem losesCollection_withoutFirst (hid : d.hasCollection id = true) :
    d.LosesCollection id (d.withoutFirst id) := by
  obtain ⟨e, he, hid⟩ := Document.hasCollection_iff.mp hid
  obtain ⟨c, front, back, hfront, hc, hbefore, hafter⟩ :=
    List.exists_of_eraseP (p := (·.id == id)) he (by simpa using hid)
  exact {
    collections := ⟨front, c, back, hbefore, by simpa using hfront, by simpa using hc, hafter⟩
    slots := fun slot => slot_clearSlots
    rest := by simp [uncollected, withoutFirst, clearSlots, mapSlots, Map.map, Function.comp_def] }

theorem Normalized.withoutFirst (hd : d.Normalized) : (d.withoutFirst id).Normalized := by
  have hwidgets := normalized_iff.mp hd
  exact normalized_iff.mpr hwidgets

theorem dangling_withoutFirst_eq_nil {c : Catalog} (hd : d.dangling .empty = [])
    (hid : d.hasCollection id = true) : (d.withoutFirst id).dangling c = [] ↔
      ∀ kind, ∀ r ∈ (d.withoutFirst id).resources kind, c.admits kind r.1 := by
  have hempty := dangling_deleteCollection hd (deleteCollection?_eq_some.mpr ⟨hid, rfl, rfl⟩)
  rw [dangling_eq_nil, and_iff_right (dangling_eq_nil.mp hempty).1]

end Document

namespace Store

-- ---------------------------------------------------------------------------
-- Stores that can be reached
-- ---------------------------------------------------------------------------

/-- The stores that can be reached, each with the documents read on the way. Unlike in a `Run`, any
of these can be taken for saved, however many catalogs came since: so it is with a save in flight
while they come. -/
inductive Reached (start : Store) : List Document → Store → Prop
  | start : Reached start [] start
  | read {read s d} (reached : Reached start read s) (h : s.get = .ok d) :
    Reached start (d :: read) s
  | execute {read s} (c : StoreCommand) (reached : Reached start read s) (h : c.SavesRead read) :
    Reached start read (s.execute c).2

variable {start s t : Store} {read : List Document} {l : Loaded} {d : Document} {id : String}
  {cleared : List Reference}

/-- Both documents are intact, but for resources that are not listed. -/
abbrev Uncataloged : Store → Prop := Both fun _ d => d.Intact .empty

theorem Uncataloged.execute {c : StoreCommand} (h : s.Uncataloged)
    (hread : ∀ d ∈ read, d.Intact .empty) (hc : c.SavesRead read) :
    (s.execute c).2.Uncataloged := by
  refine Both.execute h (fun d _ => (Document.intact_repair _ d).uncataloged) ?_
    (fun _ _ _ normalized dangling _ => Document.Intact.uncataloged ⟨normalized, dangling⟩)
    fun _ _ _ _ hd => hd.retain_publish.uncataloged
  rintro d rfl
  exact hread d hc

theorem Reached.uncataloged (unloaded : start.loaded = none) (reached : Reached start read s) :
    s.Uncataloged ∧ ∀ d ∈ read, d.Intact .empty := by
  induction reached with
  | start => exact ⟨fun l hl => by simp [unloaded] at hl, nofun⟩
  | read _ h ih =>
    obtain ⟨l, hl, rfl⟩ := get_eq_ok h
    exact ⟨ih.1, List.forall_mem_cons.mpr ⟨(ih.1 l hl).1, ih.2⟩⟩
  -- Being intact without catalogs does not depend on the store, so it outlives every command.
  | execute c _ h ih => exact ⟨ih.1.execute ih.2 h, ih.2⟩

-- ---------------------------------------------------------------------------
-- Deleting
-- ---------------------------------------------------------------------------

theorem deleteCollection_eq_commit (hl : s.loaded = some l)
    (hid : l.current.hasCollection id = true) :
    s.deleteCollection id = (s.commit "delete_collection" (l.current.withoutFirst id)).map
      (·, l.current.slotsNaming (· == id)) := by
  have hdelete := Document.deleteCollection?_eq_some.mpr ⟨hid, rfl, rfl⟩
  simp only [deleteCollection, get_of_loaded hl, ok_bind, hdelete]
  cases s.commit "delete_collection" (l.current.withoutFirst id) <;> rfl

/-- What stands in the way of a deletion is that there is no collection of the id, or that the
catalogs do not admit a resource that stays. -/
theorem deleteCollection_eq_ok (hl : s.loaded = some l) (hd : l.current.Intact .empty) :
    s.deleteCollection id = .ok (t, cleared) ↔
      (l.current.hasCollection id = true ∧
        ∀ kind, ∀ r ∈ (l.current.withoutFirst id).resources kind, s.catalog.admits kind r.1) ∧
      t = { s with
        loaded := some { l with
          current := l.current.withoutFirst id, revision := l.revision + 1 } } ∧
      cleared = l.current.slotsNaming (· == id) := by
  cases hid : l.current.hasCollection id with
  | false => simp [deleteCollection, get_of_loaded hl, Document.deleteCollection?, hid]
  | true =>
    -- A document that has lost a collection is never taken for the current one.
    have hsame := (Document.losesCollection_withoutFirst hid).same_eq_false
    have hcommit : ∀ t, s.commit "delete_collection" (l.current.withoutFirst id) = .ok t ↔
        (∀ kind, ∀ r ∈ (l.current.withoutFirst id).resources kind, s.catalog.admits kind r.1) ∧
          t = { s with
            loaded := some { l with
              current := l.current.withoutFirst id, revision := l.revision + 1 } } := by
      intro t
      rw [commit_eq_ok, hd.normalized.withoutFirst,
        Document.dangling_withoutFirst_eq_nil hd.integral hid]
      simp [hl, Loaded.committed, hsame]
    rw [deleteCollection_eq_commit hl hid]
    constructor
    · intro h
      obtain ⟨t', ht', h⟩ := map_eq_ok h
      obtain ⟨hadmits, ht⟩ := (hcommit t').mp ht'
      cases h
      exact ⟨⟨rfl, hadmits⟩, ht, rfl⟩
    · rintro ⟨⟨-, hadmits⟩, ht, rfl⟩
      rw [(hcommit t).mpr ⟨hadmits, ht⟩]
      rfl

/-- From an unloaded store, whatever is loaded, edited, published and saved: a collection is deleted
if there is one of the id and the catalogs admit the resources that stay. The first of the id goes,
and every slot that names the id is cleared and reported, in the order of the places; nothing else
changes. So the id is still there afterwards if it stood there more than once. -/
theorem Reached.deleteCollection_takes_first (unloaded : start.loaded = none)
    (reached : Reached start read s) (hl : s.loaded = some l) (id : String) :
    ((∃ t cleared, s.deleteCollection id = .ok (t, cleared)) ↔
      l.current.hasCollection id = true ∧
        ∀ kind, ∀ r ∈ (l.current.withoutFirst id).resources kind, s.catalog.admits kind r.1) ∧
    ∀ t cleared, s.deleteCollection id = .ok (t, cleared) → ∃ after,
      t = { s with loaded := some { l with current := after, revision := l.revision + 1 } } ∧
      cleared = (l.current.places.filter fun slot => l.current.slot slot = some id).map
        (.slot · id) ∧
      l.current.LosesCollection id after ∧
      (after.hasCollection id = true ↔ 1 < l.current.collections.countP (·.id == id)) := by
  have hd := ((reached.uncataloged unloaded).1 l hl).1
  refine ⟨⟨?_, fun h => ?_⟩, fun t cleared h => ?_⟩
  · rintro ⟨t, cleared, h⟩
    exact ((deleteCollection_eq_ok hl hd).mp h).1
  · exact ⟨_, _, (deleteCollection_eq_ok hl hd).mpr ⟨h, rfl, rfl⟩⟩
  · obtain ⟨⟨hid, -⟩, ht, hcleared⟩ := (deleteCollection_eq_ok hl hd).mp h
    have hloses := Document.losesCollection_withoutFirst hid
    exact ⟨_, ht, hcleared.trans Document.slotsNaming_eq_map_places, hloses,
      hloses.hasCollection_iff⟩

def twoFjords : Document where
  wallpaper := some "fjords"
  collections := [
    { id := "fjords", name := "Fjords", resources := ["norway.jpg"] },
    { id := "dunes", name := "Dunes", resources := ["sahara.jpg"] },
    { id := "fjords", name := "More fjords" }]

/-- Of two collections of one id the second stays. A save of them is in flight while a catalog comes
that lists no dunes; its document is the snapshot then, so going back brings the resource of the
dunes back, and until these are deleted no other collection is. -/
theorem deleteCollection_takes_first_after_restore :
    ∃ start loaded restored, start.loaded = none ∧ Reached start [] loaded ∧
      Reached start [twoFjords] restored ∧
      (∃ t cleared after, loaded.deleteCollection "fjords" = .ok (t, cleared) ∧
        cleared = [.slot .global "fjords"] ∧ t.get = .ok after ∧
        after.hasCollection "fjords" = true) ∧
      (¬ ∃ t cleared, restored.deleteCollection "fjords" = .ok (t, cleared)) ∧
      ∃ t cleared, restored.deleteCollection "dunes" = .ok (t, cleared) := by
  let start : Store := { ids := ⟨fun _ => "new", 0⟩ }
  have unloaded : Reached start [] start := .start
  have loaded := unloaded.execute (.load twoFjords) trivial
  have begun : Reached start [twoFjords] _ := loaded.read rfl
  have listed := begun.execute (.applyCatalog (Feed.ofIds .wallpaper ["norway.jpg"])) trivial
  -- What is saved was read before the catalog came, and nothing prunes it any more.
  have saved := listed.execute (.markSaved twoFjords) List.mem_cons_self
  have restored := saved.execute .restore trivial
  refine ⟨start, _, _, rfl, loaded, restored, ?_, fun h => ?_, ?_⟩
  · obtain ⟨deletes, changes⟩ := loaded.deleteCollection_takes_first rfl rfl "fjords"
    obtain ⟨t, cleared, h⟩ := deletes.mpr ⟨rfl, fun kind _ _ => rfl⟩
    obtain ⟨after, rfl, hcleared, -, namesake⟩ := changes t cleared h
    exact ⟨_, cleared, after, h, hcleared, rfl, namesake.mpr (by decide)⟩
  · obtain ⟨-, admits⟩ :=
      (restored.deleteCollection_takes_first rfl rfl "fjords").1.mp h
    exact absurd (admits .wallpaper ("sahara.jpg", .wallpaper "dunes" "sahara.jpg") (by decide))
      (by decide)
  · refine (restored.deleteCollection_takes_first rfl rfl "dunes").1.mpr ⟨rfl, fun kind => ?_⟩
    cases kind <;> decide

/-- No slot names the id any more, but there is a collection of it. -/
theorem deleteCollection_leaves_namesake :
    let s := ({ ids := ⟨fun _ => "new", 0⟩ } : Store).run [.load twoFjords]
    ∃ t after, s.deleteCollection "fjords" = .ok (t, [.slot .global "fjords"]) ∧
      t.get = .ok after ∧ after.slot .global = none ∧ after.hasCollection "fjords" = true :=
  ⟨_, _, rfl, rfl, rfl, rfl⟩

end Store

end ShellSettings
