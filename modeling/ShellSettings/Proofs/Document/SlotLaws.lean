import ShellSettings.Proofs.Document.ReferenceLaws

/-!
# Slots as places

Every slot is a place that can be read and written: writing one leaves the others
as they were, missing entries on the way included. So what dangles can be told
place by place, and no edit that leaves the collections where they are, or that
clears the slots of those it takes away, makes anything dangle.
-/

namespace ShellSettings.Document

variable {d : Document} {c : Catalog} {gone : String → Bool} {slot : Slot} {id : String}

theorem mem_monitorSlots {monitor : String} {m : Monitor} :
    (slot, some id) ∈ monitorSlots monitor m ↔
      slot = .monitor monitor ∧ m.wallpaper = some id ∨
      ∃ w workspace, slot = .workspace monitor w ∧ m.workspaces.get? w = some workspace ∧
        workspace.wallpaper = some id := by
  simp only [monitorSlots, List.mem_cons, List.mem_map, Prod.mk.injEq]
  constructor
  · rintro (⟨rfl, h⟩ | ⟨⟨w, workspace⟩, hw, rfl, h⟩)
    · exact .inl ⟨rfl, h.symm⟩
    · exact .inr ⟨w, workspace, rfl, Map.mem_entries.mp hw, h⟩
  · rintro (⟨rfl, h⟩ | ⟨w, workspace, rfl, hw, h⟩)
    · exact .inl ⟨rfl, h.symm⟩
    · exact .inr ⟨(w, workspace), Map.mem_entries.mpr hw, rfl, h⟩

theorem mem_slots : (slot, some id) ∈ d.slots ↔ d.slot slot = some id := by
  simp only [slots, List.mem_cons, List.mem_flatMap, mem_monitorSlots, Prod.mk.injEq]
  constructor
  · rintro (⟨rfl, h⟩ | ⟨⟨m, monitor⟩, hm, ⟨rfl, h⟩ | ⟨w, workspace, rfl, hw, h⟩⟩)
    · exact h.symm
    · simpa [Document.slot, Map.mem_entries.mp hm] using h
    · simpa [Document.slot, Map.mem_entries.mp hm, hw] using h
  · intro h
    cases slot with
    | global => exact .inl ⟨rfl, h.symm⟩
    | monitor m =>
      obtain ⟨monitor, hm, h⟩ := Option.bind_eq_some_iff.mp h
      exact .inr ⟨(m, monitor), Map.mem_entries.mpr hm, .inl ⟨rfl, h⟩⟩
    | workspace m w =>
      obtain ⟨workspace, h, hid⟩ := Option.bind_eq_some_iff.mp h
      obtain ⟨monitor, hm, hw⟩ := Option.bind_eq_some_iff.mp h
      exact .inr ⟨(m, monitor), Map.mem_entries.mpr hm, .inr ⟨w, workspace, rfl, hw, hid⟩⟩

theorem slot_setSlot (slot slot' : Slot) (id : Option String) :
    (d.setSlot slot id).slot slot' = if slot' = slot then id else d.slot slot' := by
  cases slot with
  | global => cases slot' <;> simp [setSlot, Document.slot]
  | monitor m =>
    cases slot' with
    | global => simp [setSlot, Document.slot]
    | monitor m' => by_cases h : m' = m <;> simp [setSlot, Document.slot, Map.change, h]
    | workspace m' w' =>
      by_cases h : m' = m
      · subst h
        cases hm : d.monitors.get? m' <;> simp [setSlot, Document.slot, Map.change, hm]
      · simp [setSlot, Document.slot, Map.change, h]
  | workspace m w =>
    cases slot' with
    | global => simp [setSlot, Document.slot]
    | monitor m' =>
      by_cases h : m' = m
      · subst h
        cases hm : d.monitors.get? m' <;> simp [setSlot, Document.slot, Map.change, hm]
      · simp [setSlot, Document.slot, Map.change, h]
    | workspace m' w' =>
      by_cases h : m' = m
      · subst h
        by_cases hw : w' = w
        · simp [setSlot, Document.slot, Map.change, hw]
        · cases hm : d.monitors.get? m' <;> simp [setSlot, Document.slot, Map.change, hm, hw]
      · simp [setSlot, Document.slot, Map.change, h]

theorem slot_mapSlots {f : Option String → Option String} (hf : f none = none) :
    (d.mapSlots f).slot slot = f (d.slot slot) := by
  cases slot with
  | global => rfl
  | monitor m => cases h : d.monitors.get? m <;> simp [mapSlots, Document.slot, h, hf]
  | workspace m w =>
    cases h : d.monitors.get? m with
    | none => simp [mapSlots, Document.slot, h, hf]
    | some monitor =>
      cases hw : monitor.workspaces.get? w <;> simp [mapSlots, Document.slot, h, hw, hf]

theorem slot_clearSlots : (d.clearSlots gone).slot slot = (d.slot slot).filter (!gone ·) :=
  slot_mapSlots rfl

theorem slot_of_activeWallpaper {monitor : String} {workspace : Option String} {level : SlotLevel}
    (h : d.activeWallpaper monitor workspace = some (id, level)) :
    ∃ slot, d.slot slot = some id := by
  simp only [activeWallpaper, Option.orElse_eq_orElse, Option.orElse_eq_or, Option.or_eq_some_iff,
    Option.map_eq_some_iff, Prod.mk.injEq] at h
  rcases h with ⟨_, h, rfl, -⟩ | ⟨-, ⟨_, h, rfl, -⟩ | ⟨-, _, h, rfl, -⟩⟩
  · obtain ⟨w, -, h⟩ := Option.bind_eq_some_iff.mp h
    exact ⟨_, h⟩
  · exact ⟨_, h⟩
  · exact ⟨_, h⟩

theorem slotsNaming_eq_nil :
    d.slotsNaming gone = [] ↔ ∀ slot id, d.slot slot = some id → gone id = false := by
  simp only [slotsNaming, List.filterMap_eq_nil_iff]
  constructor
  · intro h slot id hslot
    simpa [Option.filter] using h _ (mem_slots.mpr hslot)
  · rintro h ⟨slot, id?⟩ hs
    cases id? with
    | none => rfl
    | some id => simp [Option.filter, h slot id (mem_slots.mp hs)]

theorem dangling_eq_nil : d.dangling c = [] ↔
    (∀ slot id, d.slot slot = some id → d.hasCollection id = true) ∧
      ∀ kind, ∀ r ∈ d.resources kind, c.admits kind r.1 := by
  simp only [dangling, List.append_eq_nil_iff, slotsNaming_eq_nil, unlisted_eq_nil,
    Bool.not_eq_eq_eq_not, Bool.not_false]
  constructor
  · rintro ⟨⟨⟨hslots, htheme⟩, hicon⟩, hwall⟩
    refine ⟨hslots, fun kind => ?_⟩
    cases kind with
    | theme => exact htheme
    | iconPack => exact hicon
    | wallpaper => exact hwall
    | widget => exact fun _ h => absurd h List.not_mem_nil
  · rintro ⟨hslots, hlisted⟩
    exact ⟨⟨⟨hslots, hlisted _⟩, hlisted _⟩, hlisted _⟩

theorem dangling_normalize : d.normalize.dangling c = d.dangling c := rfl

theorem dangling_setSlot {id? : Option String} (slot : Slot) (h : d.dangling c = [])
    (hid : ∀ id, id? = some id → d.hasCollection id = true) :
    (d.setSlot slot id?).dangling c = [] := by
  obtain ⟨hslots, hlisted⟩ := dangling_eq_nil.mp h
  have hcollections : ∀ id, (d.setSlot slot id?).hasCollection id = d.hasCollection id := by
    intro id
    cases slot <;> rfl
  have hresources : (d.setSlot slot id?).resources = d.resources := by
    funext kind
    cases slot <;> cases kind <;> rfl
  refine dangling_eq_nil.mpr ⟨fun slot' id hslot => ?_, hresources ▸ hlisted⟩
  rw [slot_setSlot] at hslot
  rw [hcollections]
  split at hslot
  · exact hid id hslot
  · exact hslots slot' id hslot

theorem hasCollection_eraseP {id' : String} (h : id' ≠ id) :
    { d with collections := d.collections.eraseP (·.id == id) }.hasCollection id' =
      d.hasCollection id' := by
  rw [Bool.eq_iff_iff, hasCollection_iff, hasCollection_iff]
  refine exists_congr fun c => and_congr_left fun hc => ?_
  exact List.mem_eraseP_of_neg (by simpa [hc] using h)

theorem dangling_deleteCollection {next : Document} {cleared : List Reference}
    (h : d.dangling c = []) (hdelete : d.deleteCollection? id = some (next, cleared)) :
    next.dangling c = [] := by
  obtain ⟨hslots, hlisted⟩ := dangling_eq_nil.mp h
  unfold deleteCollection? at hdelete
  split at hdelete
  · cases hdelete
    refine dangling_eq_nil.mpr ⟨fun slot id' hslot => ?_, fun kind r hr => ?_⟩
    · rw [slot_clearSlots, Option.filter_eq_some_iff] at hslot
      obtain ⟨hslot, hne⟩ := hslot
      rw [hasCollection_clearSlots, hasCollection_eraseP (by simpa using hne)]
      exact hslots slot id' hslot
    · refine hlisted kind r ?_
      cases kind with
      | theme | iconPack | widget => exact hr
      | wallpaper =>
        obtain ⟨c, hc, hr⟩ := List.mem_flatMap.mp hr
        exact List.mem_flatMap.mpr ⟨c, List.mem_of_mem_eraseP hc, hr⟩
  · cases hdelete

end ShellSettings.Document
