import ShellSettings.Proofs.Document.ReferenceLaws
import ShellSettings.Proofs.Document.RoundTrip

/-!
# What edits of a document keep

Edits build new documents out of well-formed ones. None of them touches the
parts that well-formedness is about, but for new entries, which are empty. What
is dropped from a normalized document leaves it normalized.
-/

namespace ShellSettings

theorem Map.All.change {α : Type} {P : α → Prop} {m : Map α} {key : String} {start : α} {f : α → α}
    (h : m.All P) (hstart : P start) (hf : ∀ a, P a → P (f a)) : (m.change key start f).All P := by
  refine h.insert (hf _ ?_)
  cases hv : m.get? key with
  | none => exact hstart
  | some a => exact h.get? hv

theorem Collection.wellFormed_iff {c : Collection} :
    c.WellFormed ↔ ∀ e ∈ c.extra.entries, (record (σ := Json)).Keeps e.1 e.2 := by
  simp only [WellFormed, members, List.forall_mem_append, List.forall_mem_cons,
    List.forall_mem_map, Member.WellFormed]
  simp

theorem Workspace.wellFormed_iff {w : Workspace} :
    w.WellFormed ↔ ∀ e ∈ w.extra.entries, (record (σ := Json)).Keeps e.1 e.2 := by
  simp only [WellFormed, members, List.forall_mem_cons, List.forall_mem_map, Member.WellFormed]
  simp

theorem Monitor.wellFormed_iff {m : Monitor} :
    m.WellFormed ↔ m.widgets.All (fun b => b.All Json.IsSorted) ∧
      m.workspaces.All Workspace.WellFormed ∧
      ∀ e ∈ m.extra.entries, (record (σ := Json)).Keeps e.1 e.2 := by
  simp only [WellFormed, members, List.forall_mem_append, List.forall_mem_cons,
    List.forall_mem_map, Member.WellFormed]
  simp [and_assoc]

theorem Widget.wellFormed_iff {w : Widget} :
    w.WellFormed ↔ (∀ m ∈ w.instances, m.All fun b => b.All Json.IsSorted) ∧
      ∀ e ∈ w.settings.entries, (record (σ := Json)).Keeps e.1 e.2 := by
  simp only [WellFormed, members, List.forall_mem_append, List.forall_mem_cons,
    List.forall_mem_map, Member.WellFormed]
  simp

theorem Collection.WellFormed.congr {c c' : Collection} (hc : c.WellFormed)
    (h : c'.extra = c.extra) : c'.WellFormed := by
  rw [wellFormed_iff] at hc ⊢
  exact h ▸ hc

theorem Workspace.WellFormed.congr {w w' : Workspace} (hw : w.WellFormed)
    (h : w'.extra = w.extra) : w'.WellFormed := by
  rw [wellFormed_iff] at hw ⊢
  exact h ▸ hw

theorem Monitor.WellFormed.withWorkspaces {m : Monitor} {ws : Map Workspace} {id : Option String}
    (hm : m.WellFormed) (hws : ws.All Workspace.WellFormed) :
    { m with workspaces := ws, wallpaper := id }.WellFormed := by
  obtain ⟨hwidgets, -, hextra⟩ := wellFormed_iff.mp hm
  exact wellFormed_iff.mpr ⟨hwidgets, hws, hextra⟩

theorem Widget.WellFormed.withInstances {w : Widget} {instances : Option (Map Blob)}
    (hw : w.WellFormed) (h : ∀ m ∈ instances, m.All fun b => b.All Json.IsSorted) :
    { w with instances }.WellFormed :=
  wellFormed_iff.mpr ⟨h, (wellFormed_iff.mp hw).2⟩

theorem Workspace.wellFormed_default : ({} : Workspace).WellFormed := wellFormed_iff.mpr nofun

theorem Monitor.wellFormed_default : ({} : Monitor).WellFormed :=
  wellFormed_iff.mpr ⟨Map.all_empty, Map.all_empty, nofun⟩

theorem Widget.wellFormed_default : ({} : Widget).WellFormed := wellFormed_iff.mpr ⟨nofun, nofun⟩

namespace Document

variable {d : Document} {c : Catalog} {kind : ResourceKind} {keep gone : String → Bool}

theorem wellFormed_iff : d.WellFormed ↔
    d.widgets.All Widget.WellFormed ∧ d.monitors.All Monitor.WellFormed ∧
      (∀ c ∈ d.collections, c.WellFormed) ∧ d.shortcuts.All Json.IsSorted ∧
      d.updater.WellFormed ∧ ∀ e ∈ d.extra.entries, (record (σ := Json)).Keeps e.1 e.2 := by
  simp only [WellFormed, members, List.forall_mem_append, List.forall_mem_cons,
    List.forall_mem_map, Member.WellFormed]
  simp [and_assoc]

theorem WellFormed.parts (hd : d.WellFormed) :
    d.widgets.All Widget.WellFormed ∧ d.monitors.All Monitor.WellFormed ∧
      (∀ c ∈ d.collections, c.WellFormed) ∧ d.shortcuts.All Json.IsSorted ∧
      d.updater.WellFormed ∧ ∀ e ∈ d.extra.entries, (record (σ := Json)).Keeps e.1 e.2 :=
  wellFormed_iff.mp hd

theorem WellFormed.withWidgets {ws : Map Widget} (hd : d.WellFormed)
    (hws : ws.All Widget.WellFormed) : { d with widgets := ws }.WellFormed :=
  wellFormed_iff.mpr ⟨hws, hd.parts.2⟩

theorem WellFormed.withMonitors {ms : Map Monitor} {id : Option String} (hd : d.WellFormed)
    (hms : ms.All Monitor.WellFormed) : { d with monitors := ms, wallpaper := id }.WellFormed :=
  wellFormed_iff.mpr ⟨hd.parts.1, hms, hd.parts.2.2⟩

theorem WellFormed.withCollections {cs : List Collection} (hd : d.WellFormed)
    (hcs : ∀ c ∈ cs, c.WellFormed) : { d with collections := cs }.WellFormed :=
  wellFormed_iff.mpr ⟨hd.parts.1, hd.parts.2.1, hcs,
    hd.parts.2.2.2⟩

def Normalized (d : Document) : Prop := d.normalize = d

theorem normalized_iff : d.Normalized ↔ (d.widgets.map fun _ w => w.normalize) = d.widgets :=
  ⟨fun h => congrArg Document.widgets h, fun h => by simp only [Normalized, normalize, h]⟩

theorem normalized_normalize (d : Document) : d.normalize.Normalized := by
  have hw : ∀ w : Widget, w.normalize.normalize = w.normalize := by
    intro w
    cases h : w.instances with
    | none => simp [Widget.normalize, h]
    | some m => by_cases hm : m.isEmpty <;> simp [Widget.normalize, h, hm, Option.filter]
  simp [Normalized, normalize, Map.map, hw]

theorem WellFormed.normalize (hd : d.WellFormed) : d.normalize.WellFormed := by
  refine hd.withWidgets (hd.parts.1.map fun _ w hw => hw.withInstances fun m hm => ?_)
  exact (Widget.wellFormed_iff.mp hw).1 m (Option.mem_filter_iff.mp hm).1

theorem WellFormed.retain (hd : d.WellFormed) : (d.retain kind keep).WellFormed := by
  cases kind with
  | theme | iconPack => exact wellFormed_iff.mpr hd.parts
  | wallpaper =>
    refine hd.withCollections (List.forall_mem_map.mpr fun c hc => ?_)
    exact (hd.parts.2.2.1 c hc).congr rfl
  | widget => exact hd

theorem WellFormed.clearSlots (hd : d.WellFormed) : (d.clearSlots gone).WellFormed := by
  refine hd.withMonitors (hd.parts.2.1.map fun _ m hm => ?_)
  have hworkspaces := (Monitor.wellFormed_iff.mp hm).2.1
  exact hm.withWorkspaces (hworkspaces.map fun _ w hw => hw.congr rfl)

theorem Normalized.retain (hd : d.Normalized) : (d.retain kind keep).Normalized := by
  have hw := normalized_iff.mp hd
  cases kind <;> exact normalized_iff.mpr hw

theorem Normalized.clearSlots (hd : d.Normalized) : (d.clearSlots gone).Normalized := by
  have hw := normalized_iff.mp hd
  exact normalized_iff.mpr hw

theorem WellFormed.repair (hd : d.WellFormed) : (d.repair c).1.WellFormed := by
  simp only [repair_eq, retainAdmitted, ResourceKind.all, List.foldl_cons, List.foldl_nil]
  exact hd.clearSlots.retain.retain.retain.retain

theorem Normalized.repair (hd : d.Normalized) : (d.repair c).1.Normalized := by
  simp only [repair_eq, retainAdmitted, ResourceKind.all, List.foldl_cons, List.foldl_nil]
  exact hd.clearSlots.retain.retain.retain.retain

theorem WellFormed.deleteCollection {id : String} {next : Document} {cleared : List Reference}
    (hd : d.WellFormed) (h : d.deleteCollection? id = some (next, cleared)) : next.WellFormed := by
  unfold deleteCollection? at h
  split at h
  · cases h
    refine WellFormed.clearSlots (hd.withCollections fun c hc => ?_)
    exact hd.parts.2.2.1 c (List.mem_of_mem_eraseP hc)
  · cases h

theorem WellFormed.setSlot {slot : Slot} {id : Option String} (hd : d.WellFormed) :
    (d.setSlot slot id).WellFormed := by
  have hmonitors := hd.parts.2.1
  cases slot with
  | global => exact hd.withMonitors hmonitors
  | monitor m =>
    refine hd.withMonitors (hmonitors.change Monitor.wellFormed_default fun m hm => ?_)
    exact hm.withWorkspaces (Monitor.wellFormed_iff.mp hm).2.1
  | workspace m w =>
    refine hd.withMonitors (hmonitors.change Monitor.wellFormed_default fun m hm => ?_)
    have hworkspaces := (Monitor.wellFormed_iff.mp hm).2.1
    exact hm.withWorkspaces
      (hworkspaces.change Workspace.wellFormed_default fun w hw => hw.congr rfl)

end Document

end ShellSettings
