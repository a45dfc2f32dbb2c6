import ShellSettings.Proofs.Document.SlotLaws

/-!
# What repairing leaves

A reference dangles by what it points to alone, so of equal references all dangle or
none does. What repairing leaves of a document can therefore be told from the report:
every slot and every list without what is reported, in the order as before, and
everything else as it is (`Document.repair_drops_dangling`).
-/

namespace ShellSettings.Document

variable {d : Document} {c : Catalog} {slot : Slot} {id collection : String} {r : Reference}
  {kind : ResourceKind} {gone keep : String → Bool}

theorem mem_slotsNaming : r ∈ d.slotsNaming gone ↔
    ∃ slot id, r = .slot slot id ∧ d.slot slot = some id ∧ gone id = true := by
  simp only [slotsNaming, List.mem_filterMap, Option.map_eq_some_iff, Option.filter_eq_some_iff]
  constructor
  · rintro ⟨⟨slot, _⟩, hs, id, ⟨rfl, hgone⟩, rfl⟩
    exact ⟨slot, id, rfl, mem_slots.mp hs, hgone⟩
  · rintro ⟨slot, id, rfl, hslot, hgone⟩
    exact ⟨(slot, some id), mem_slots.mpr hslot, id, ⟨rfl, hgone⟩, rfl⟩

theorem mem_unlisted : r ∈ d.unlisted kind keep ↔
    ∃ id, (id, r) ∈ d.resources kind ∧ keep id = false := by
  simp only [unlisted, List.mem_map, List.mem_filter, Bool.not_eq_true']
  constructor
  · rintro ⟨⟨id, _⟩, ⟨hr, hkeep⟩, rfl⟩
    exact ⟨id, hr, hkeep⟩
  · rintro ⟨id, hr, hkeep⟩
    exact ⟨(id, r), ⟨hr, hkeep⟩, rfl⟩

theorem slot_mem_dangling : .slot slot id ∈ d.dangling c ↔
    d.slot slot = some id ∧ d.hasCollection id = false := by
  simp [dangling, mem_slotsNaming, mem_unlisted, resources, and_assoc]

theorem theme_mem_dangling : .theme id ∈ d.dangling c ↔
    id ∈ d.themes ∧ c.admits .theme id = false := by
  simp [dangling, mem_slotsNaming, mem_unlisted, resources, and_assoc]

theorem iconPack_mem_dangling : .iconPack id ∈ d.dangling c ↔
    id ∈ d.iconPacks ∧ c.admits .iconPack id = false := by
  simp [dangling, mem_slotsNaming, mem_unlisted, resources, and_assoc]

theorem wallpaper_mem_dangling : .wallpaper collection id ∈ d.dangling c ↔
    (∃ e ∈ d.collections, e.id = collection ∧ id ∈ e.resources) ∧
      c.admits .wallpaper id = false := by
  simp only [dangling, mem_slotsNaming, mem_unlisted, resources, List.mem_append, List.mem_map,
    List.mem_flatMap, Prod.mk.injEq, reduceCtorEq, false_and, and_false, exists_false, false_or]
  constructor
  · rintro ⟨_, ⟨e, he, _, hid, rfl, heq⟩, h⟩
    cases heq
    exact ⟨⟨e, he, rfl, hid⟩, h⟩
  · rintro ⟨⟨e, he, rfl, hid⟩, h⟩
    exact ⟨id, ⟨e, he, id, hid, rfl, rfl⟩, h⟩

/-- A document without its references: every slot is clear, and nothing is listed. -/
def unreferring (d : Document) : Document :=
  { d.clearSlots fun _ => true with
    themes := []
    iconPacks := []
    collections := d.collections.map fun c => { c with resources := [] } }

/-- What is left of a document when the references in `dropped` are taken from it, and only
these. -/
structure Less (dropped : List Reference) (d left : Document) : Prop where
  slots : ∀ slot, left.slot slot = (d.slot slot).filter fun id => .slot slot id ∉ dropped
  themes : left.themes = d.themes.filter fun id => .theme id ∉ dropped
  iconPacks : left.iconPacks = d.iconPacks.filter fun id => .iconPack id ∉ dropped
  resources : left.collections.map (·.resources) =
    d.collections.map fun c => c.resources.filter fun id => .wallpaper c.id id ∉ dropped
  rest : left.unreferring = d.unreferring

theorem repair_fst (d : Document) (c : Catalog) : (d.repair c).1 =
    { d.clearSlots fun id => !d.hasCollection id with
      themes := d.themes.filter (c.admits .theme)
      iconPacks := d.iconPacks.filter (c.admits .iconPack)
      collections := d.collections.map fun e =>
        { e with resources := e.resources.filter (c.admits .wallpaper) } } := by
  rw [repair_eq]
  rfl

theorem slot_repair : (d.repair c).1.slot slot = (d.slot slot).filter (d.hasCollection ·) := by
  have hcleared : (d.repair c).1.slot slot =
      (d.clearSlots fun id => !d.hasCollection id).slot slot := by
    rw [repair_fst]
    cases slot <;> rfl
  rw [hcleared, slot_clearSlots]
  simp only [Bool.not_not]

theorem unreferring_repair : (d.repair c).1.unreferring = d.unreferring := by
  simp [repair_fst, unreferring, clearSlots, mapSlots, Map.map, Function.comp_def]

theorem less_repair (d : Document) (c : Catalog) : d.Less (d.dangling c) (d.repair c).1 where
  slots slot := by
    rw [slot_repair]
    cases h : d.slot slot with
    | none => rfl
    | some id => simp [Option.filter, slot_mem_dangling, h]
  themes := by
    rw [repair_fst]
    refine List.filter_congr fun id hid => ?_
    simp [theme_mem_dangling, hid]
  iconPacks := by
    rw [repair_fst]
    refine List.filter_congr fun id hid => ?_
    simp [iconPack_mem_dangling, hid]
  resources := by
    rw [repair_fst, List.map_map]
    refine List.map_congr_left fun e he => List.filter_congr fun id hid => ?_
    -- A reference names its collection by the id, so another of the same id may be meant as well.
    have hlisted : ∃ e' ∈ d.collections, e'.id = e.id ∧ id ∈ e'.resources := ⟨e, he, rfl, hid⟩
    simp [wallpaper_mem_dangling, hlisted]
  rest := unreferring_repair

/-- Repairing reports what dangles, in the order and as often as it is found beforehand. Afterwards
nothing dangles, repairing again drops nothing, and the document is as before but for what was
reported. -/
theorem repair_drops_dangling (d : Document) (c : Catalog) :
    (d.repair c).2 = d.dangling c ∧ (d.repair c).1.dangling c = [] ∧
      (d.repair c).1.repair c = ((d.repair c).1, []) ∧
      d.Less (d.dangling c) (d.repair c).1 := by
  have hnone : (d.repair c).1.dangling c = [] := dangling_repair d c
  have hagain : ((d.repair c).1.repair c).2 = [] := by
    rw [repair_eq]
    exact hnone
  exact ⟨congrArg Prod.snd (repair_eq d c), hnone, Prod.ext (repair_eq_self hagain) hagain,
    less_repair d c⟩

end ShellSettings.Document
