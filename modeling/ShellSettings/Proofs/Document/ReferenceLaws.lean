import ShellSettings.Document.Reference
import ShellSettings.Proofs.MapLaws

/-!
# Repairing drops exactly what dangles

Clearing slots and retaining the resources of one kind do not get in each
other's way: each leaves the references that the others go by as they were. So
repairing reports exactly the dangling references, and none are left.
-/

namespace ShellSettings

theorem IdSet.contains_ofList {ids : List String} {id : String} :
    (IdSet.ofList ids).contains id = true ↔ id ∈ ids := by
  simp [IdSet.ofList, Map.contains_ofList]

variable {d : Document} {c : Catalog} {kind kind' : ResourceKind} {gone keep keep' : String → Bool}

namespace Document

-- ---------------------------------------------------------------------------
-- Collections
-- ---------------------------------------------------------------------------

theorem hasCollection_iff {id : String} :
    d.hasCollection id = true ↔ ∃ c ∈ d.collections, c.id = id := by
  simp [hasCollection, collection?]

/-- Repairing asks the set of ids for what `dangling` looks up in the collections. -/
theorem contains_collectionIds (d : Document) (id : String) :
    d.collectionIds.contains id = d.hasCollection id := by
  rw [Bool.eq_iff_iff, collectionIds, IdSet.contains_ofList, hasCollection_iff, List.mem_map]

-- ---------------------------------------------------------------------------
-- Retaining resources
-- ---------------------------------------------------------------------------

theorem hasCollection_retain (id : String) :
    (d.retain kind keep).hasCollection id = d.hasCollection id := by
  cases kind
  case wallpaper =>
    have h : ((fun c : Collection => c.id == id) ∘ fun c : Collection =>
        { c with resources := c.resources.filter keep }) = fun c => c.id == id := rfl
    simp only [hasCollection, collection?, retain, List.find?_map, h, Option.isSome_map]
  all_goals rfl

theorem slots_retain : (d.retain kind keep).slots = d.slots := by cases kind <;> rfl

theorem slotsNaming_retain : (d.retain kind keep).slotsNaming gone = d.slotsNaming gone := by
  simp only [slotsNaming, slots_retain]

theorem unlisted_eq_nil : d.unlisted kind keep = [] ↔ ∀ r ∈ d.resources kind, keep r.1 := by
  simp [unlisted]

theorem unlisted_retain_self : (d.retain kind keep).unlisted kind keep = [] := by
  rw [unlisted_eq_nil]
  cases kind <;> simp [resources, retain]
  case theme => rintro _ _ id - hk rfl -; exact hk
  case iconPack => rintro _ _ id - hk rfl -; exact hk
  case wallpaper => rintro _ _ c - id - hk rfl -; exact hk

theorem unlisted_retain_of_ne (h : kind' ≠ kind) :
    (d.retain kind keep).unlisted kind' keep' = d.unlisted kind' keep' := by
  cases kind <;> cases kind' <;> first | contradiction | rfl

theorem retain_eq_self (h : d.unlisted kind keep = []) : d.retain kind keep = d := by
  rw [unlisted_eq_nil] at h
  cases kind
  case theme =>
    have hkeep : d.themes.filter keep = d.themes := by simpa [resources] using h
    simp only [retain, hkeep]
  case iconPack =>
    have hkeep : d.iconPacks.filter keep = d.iconPacks := by simpa [resources] using h
    simp only [retain, hkeep]
  case wallpaper =>
    have hkeep : ∀ c ∈ d.collections, c.resources.filter keep = c.resources := by
      intro c hc
      refine List.filter_eq_self.mpr (fun id hid => ?_)
      exact h (id, .wallpaper c.id id)
        (List.mem_flatMap.mpr ⟨c, hc, List.mem_map.mpr ⟨id, hid, rfl⟩⟩)
    have hmap : d.collections.map (fun c => { c with resources := c.resources.filter keep }) =
        d.collections :=
      (List.map_congr_left fun c hc => by rw [hkeep c hc]; rfl).trans (List.map_id _)
    simp only [retain, hmap]
  case widget => rfl

-- ---------------------------------------------------------------------------
-- Clearing slots
-- ---------------------------------------------------------------------------

theorem unlisted_clearSlots : (d.clearSlots gone).unlisted kind keep = d.unlisted kind keep := by
  cases kind <;> rfl

theorem hasCollection_clearSlots (id : String) :
    (d.clearSlots gone).hasCollection id = d.hasCollection id := rfl

theorem slots_mapSlots (f : Option String → Option String) :
    (d.mapSlots f).slots = d.slots.map fun s => (s.1, f s.2) := by
  simp [slots, mapSlots, Map.map, monitorSlots, List.map_flatMap, List.flatMap_map,
    Function.comp_def]

theorem slotsNaming_clearSlots : (d.clearSlots gone).slotsNaming gone = [] := by
  simp only [slotsNaming, clearSlots, slots_mapSlots, List.filterMap_map]
  refine List.filterMap_eq_nil_iff.mpr (fun s _ => ?_)
  obtain ⟨slot, id⟩ := s
  cases id with
  | none => rfl
  | some id => by_cases h : gone id <;> simp [Option.filter, h]

theorem mapSlots_eq_self {f : Option String → Option String} (h : ∀ s ∈ d.slots, f s.2 = s.2) :
    d.mapSlots f = d := by
  have hmonitor : ∀ e ∈ d.monitors.entries, ∀ s ∈ monitorSlots e.1 e.2, f s.2 = s.2 :=
    fun e he s hs => h s (List.mem_cons_of_mem _ (List.mem_flatMap.mpr ⟨e, he, hs⟩))
  have hworkspaces : ∀ e ∈ d.monitors.entries,
      (e.2.workspaces.map fun _ w => { w with wallpaper := f w.wallpaper }) = e.2.workspaces :=
    fun e he => Map.map_eq_self fun w hw => by
      have := hmonitor e he (.workspace e.1 w.1, w.2.wallpaper)
        (List.mem_cons_of_mem _ (List.mem_map.mpr ⟨w, hw, rfl⟩))
      simp only at this
      rw [this]
  have hmonitors : (d.monitors.map fun _ m => { m with
      wallpaper := f m.wallpaper
      workspaces := m.workspaces.map fun _ w => { w with wallpaper := f w.wallpaper } }) =
      d.monitors :=
    Map.map_eq_self fun e he => by
      have := hmonitor e he (.monitor e.1, e.2.wallpaper) List.mem_cons_self
      simp only at this
      rw [this, hworkspaces e he]
  have hglobal : f d.wallpaper = d.wallpaper := h (.global, d.wallpaper) List.mem_cons_self
  simp only [mapSlots, hglobal, hmonitors]

theorem clearSlots_eq_self (h : d.slotsNaming gone = []) : d.clearSlots gone = d := by
  refine mapSlots_eq_self fun s hs => ?_
  have := List.filterMap_eq_nil_iff.mp h s hs
  obtain ⟨slot, id⟩ := s
  cases id with
  | none => rfl
  | some id => simpa [Option.filter] using this

-- ---------------------------------------------------------------------------
-- Repairing
-- ---------------------------------------------------------------------------

def retainAdmitted (d : Document) (c : Catalog) : Document :=
  ResourceKind.all.foldl (fun d kind => d.retain kind (c.admits kind)) d

theorem unlisted_retainAdmitted (kind : ResourceKind) :
    (d.retainAdmitted c).unlisted kind (c.admits kind) = [] := by
  cases kind <;>
    simp [retainAdmitted, ResourceKind.all, unlisted_retain_self, unlisted_retain_of_ne]

/-- A kind that has not been published is pruned like any other: all of it is admitted. -/
theorem repair_eq_foldl (d : Document) (c : Catalog) :
    d.repair c = ResourceKind.all.foldl
      (fun p kind =>
        (p.1.retain kind (c.admits kind), p.2 ++ p.1.unlisted kind (c.admits kind)))
      (d.clearSlots fun id => !d.hasCollection id,
        d.slotsNaming fun id => !d.hasCollection id) := by
  unfold repair
  simp only [contains_collectionIds, Catalog.kinds, List.foldl_filter]
  congr 1
  funext ⟨d, dropped⟩ kind
  cases h : c.ids? kind with
  | none =>
    have hall : d.unlisted kind (c.admits kind) = [] := by
      simp [unlisted_eq_nil, Catalog.admits, h]
    simp [retain_eq_self hall, hall]
  | some ids =>
    have hids : c.admits kind = ids.contains := by
      funext id
      simp [Catalog.admits, h]
    simp [prune, hids]

theorem repair_eq (d : Document) (c : Catalog) :
    d.repair c =
      ((d.clearSlots fun id => !d.hasCollection id).retainAdmitted c, d.dangling c) := by
  have hwidget : ∀ (d : Document) keep, d.unlisted .widget keep = [] := fun _ _ => rfl
  simp [repair_eq_foldl, ResourceKind.all, retainAdmitted, dangling, unlisted_clearSlots,
    unlisted_retain_of_ne, hwidget]

theorem dangling_repair (d : Document) (c : Catalog) : (d.repair c).1.dangling c = [] := by
  have hcoll : ∀ id, ((d.clearSlots fun id => !d.hasCollection id).retainAdmitted c).hasCollection
      id = d.hasCollection id := by
    simp [retainAdmitted, ResourceKind.all, hasCollection_retain, hasCollection_clearSlots]
  have hslots : ((d.clearSlots fun id => !d.hasCollection id).retainAdmitted c).slotsNaming
      (fun id => !d.hasCollection id) = [] := by
    simp [retainAdmitted, ResourceKind.all, slotsNaming_retain, slotsNaming_clearSlots]
  simp [repair_eq, dangling, unlisted_retainAdmitted, hcoll, hslots]

theorem repair_eq_self (h : (d.repair c).2 = []) : (d.repair c).1 = d := by
  simp only [repair_eq, dangling, List.append_eq_nil_iff] at h
  obtain ⟨⟨⟨hslots, htheme⟩, hicon⟩, hwall⟩ := h
  have hwidget : d.retain .widget (c.admits .widget) = d := rfl
  simp only [repair_eq, clearSlots_eq_self hslots, retainAdmitted, ResourceKind.all,
    List.foldl_cons, List.foldl_nil, retain_eq_self htheme, retain_eq_self hicon,
    retain_eq_self hwall, hwidget]

-- ---------------------------------------------------------------------------
-- Pruning
-- ---------------------------------------------------------------------------

theorem admits_publish_self {ids : IdSet} : (c.publish kind ids).admits kind = ids.contains := by
  funext id
  simp [Catalog.admits, Catalog.publish]

theorem admits_publish_of_ne {ids : IdSet} (h : kind' ≠ kind) :
    (c.publish kind ids).admits kind' = c.admits kind' := by
  funext id
  simp [Catalog.admits, Catalog.publish, h]

/-- A catalog that is published anew makes no other reference dangle than those it prunes. -/
theorem dangling_retain_publish {ids : IdSet} (h : d.dangling c = []) :
    (d.retain kind ids.contains).dangling (c.publish kind ids) = [] := by
  have hunlisted : ∀ kind', d.unlisted kind' (c.admits kind') = [] →
      (d.retain kind ids.contains).unlisted kind' ((c.publish kind ids).admits kind') = [] := by
    intro kind' hnil
    by_cases hk : kind' = kind
    · subst hk
      rw [admits_publish_self, unlisted_retain_self]
    · rw [admits_publish_of_ne hk, unlisted_retain_of_ne hk, hnil]
  simp only [dangling, List.append_eq_nil_iff] at h ⊢
  obtain ⟨⟨⟨hslots, htheme⟩, hicon⟩, hwall⟩ := h
  refine ⟨⟨⟨?_, hunlisted _ htheme⟩, hunlisted _ hicon⟩, hunlisted _ hwall⟩
  simpa only [hasCollection_retain, slotsNaming_retain] using hslots

end Document
end ShellSettings
