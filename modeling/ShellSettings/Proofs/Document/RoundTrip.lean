import ShellSettings.Document.Codec
import ShellSettings.Proofs.Json.RecordLaws

/-!
# Reading a document that was written

A record is well-formed if its free-form parts are sorted and no member that it
does not know goes by the name of a field. Reading gives well-formed records
only (`Document.wellFormed_of_read`), and what was written for a well-formed
record is read back as it was (`Document.read_written`), from any lawful source
and with members in any order.
-/

namespace ShellSettings

open Source (whole)

variable {σ μ : Type} [Source σ] {g : Json → Json} {s : σ}

/-- A record keeps a member under this key with this value as it stands. -/
def Record.Keeps (r : Record σ μ) (key : String) (v : Json) : Prop :=
  r.field? key = none ∧ v.IsSorted

-- ---------------------------------------------------------------------------
-- The updater
-- ---------------------------------------------------------------------------

namespace Updater

def Member.WellFormed : Member → Prop
  | .channel _ => True
  | .extra key v => (record (σ := Json)).Keeps key v

def WellFormed (u : Updater) : Prop := ∀ m ∈ u.members, m.WellFormed

theorem ofMembers_eq {u : Updater} {ms : List Member} (h : ∀ m, m ∈ ms ↔ m ∈ u.members ∧ True) :
    ofMembers ms = u := by
  obtain ⟨channel, extra⟩ := u
  simp only [ofMembers, mk.injEq]
  refine ⟨Record.getD_findSome?_eq h ?_ ?_,
    Record.ofList_filterMap_eq [_] h ?_ fun _ => ⟨rfl, trivial⟩⟩
  all_goals
    simp only [members, List.forall_mem_cons, List.forall_mem_map]
    simp [Member.extra?]

theorem Member.readsBack [LawfulSource σ] {m : Member} (hg : Json.Rearranges g)
    (hm : m.WellFormed) : (record (σ := σ)).ReadsBack g m m.write := by
  intro i hi
  cases m with
  | channel c =>
    have hc := Read.name_written UpdateChannel.table (a := c) hg (by cases c <;> rfl) hi
    exact .inl ⟨by simp [write, record], by simp [record, write, read, hc]⟩
  | extra key v => exact .inr ⟨hm.1, by simp [record, write, other, Read.json_written hg hm.2 hi]⟩

theorem nodup_keys {u : Updater} (hu : u.WellFormed) :
    (u.members.map fun m => m.write.1).Nodup := by
  have hkeys : u.members.map (fun m => m.write.1) =
      (record (σ := Json)).fields ++ u.extra.entries.map (·.1) := by
    simp [members, Member.write, record]
  rw [hkeys]
  exact Record.nodup_append_keys (r := record (σ := Json)) u.extra (by simp [record]) (.refl _)
    fun e he => (hu (.extra e.1 e.2) (by simp [members, he])).1

theorem read_written [LawfulSource σ] {u : Updater} (hg : Json.Rearranges g) (hu : u.WellFormed)
    (h : whole s = .ok (g u.toJson)) : read s = .ok u := by
  obtain ⟨ms, hms, hmem⟩ := record.ofMap_map_written (σ := σ) hg (nodup_keys hu)
    (fun m hm => Member.readsBack hg (hu m hm)) h
  simp [read, hms, ofMembers_eq hmem]

theorem Member.wellFormed_of_read {field : String} {m : Member}
    (hf : field ∈ (record (σ := σ)).fields) (h : Member.read field s = .ok m) : m.WellFormed := by
  simp only [record, List.mem_cons, List.not_mem_nil, or_false] at hf
  subst hf
  obtain ⟨c, -, rfl⟩ := map_eq_ok h
  trivial

theorem Member.wellFormed_of_other {key : String} {ms : List Member}
    (hkey : (record (σ := σ)).field? key = none) (h : Member.other key s = .ok ms) :
    ∀ m ∈ ms, m.WellFormed := by
  obtain ⟨v, hv, h⟩ := bind_eq_ok h
  cases h
  simpa [WellFormed] using ⟨hkey, Read.sorted_of_json hv⟩

theorem wellFormed_default : ({} : Updater).WellFormed :=
  List.forall_mem_cons.mpr ⟨trivial, List.forall_mem_map.mpr nofun⟩

theorem wellFormed_of_read {u : Updater} (h : read s = .ok u) : u.WellFormed := by
  obtain ⟨ms, hms, h⟩ := bind_eq_ok h
  cases h
  have hall : ∀ m ∈ ms, m.WellFormed :=
    record.all_of_ofMap hms (by simp [record]) (fun _ hf _ _ => Member.wellFormed_of_read hf)
      fun _ _ _ => Member.wellFormed_of_other
  refine List.forall_mem_cons.mpr ⟨trivial, Record.all_of_ofList_filterMap hall ?_⟩
  intro m e he
  cases m with
  | channel => cases he
  | extra => cases he; rfl

end Updater

-- ---------------------------------------------------------------------------
-- Collections
-- ---------------------------------------------------------------------------

namespace Collection

def Member.WellFormed : Member → Prop
  | .extra key v => (record (σ := Json)).Keeps key v
  | _ => True

def WellFormed (c : Collection) : Prop := ∀ m ∈ c.members, m.WellFormed

theorem ofMembers_eq {c : Collection} {ms : List Member}
    (h : ∀ m, m ∈ ms ↔ m ∈ c.members ∧ True) : ofMembers ms = .ok c := by
  obtain ⟨id, name, resources, extra⟩ := c
  unfold ofMembers
  rw [Record.findSome?_eq_some (b := id) h, Record.findSome?_eq_some (b := name) h]
  · simp only [Read.require, ok_bind, pure_eq_ok, Except.ok.injEq, mk.injEq, true_and]
    refine ⟨Record.getD_findSome?_eq h ?_ ?_,
      Record.ofList_filterMap_eq [_, _, _] h ?_ fun _ => ⟨rfl, trivial⟩⟩
    all_goals
      simp only [members, List.forall_mem_append, List.forall_mem_cons, List.forall_mem_map]
      simp [Member.extra?]
  all_goals
    simp only [members, List.forall_mem_append, List.forall_mem_cons, List.forall_mem_map]
    simp

theorem Member.readsBack [LawfulSource σ] {m : Member} (hg : Json.Rearranges g)
    (hm : m.WellFormed) : (record (σ := σ)).ReadsBack g m m.write := by
  intro i hi
  cases m with
  | id t | name t =>
    exact .inl ⟨by simp [write, record], by simp [record, write, read, Read.text_written hg hi]⟩
  | resources ids =>
    have hids := Read.list_written Read.text .str hg
      (fun _ _ _ => Read.text_written hg) hi
    exact .inl ⟨by simp [write, record], by simp [record, write, read, hids]⟩
  | extra key v => exact .inr ⟨hm.1, by simp [record, write, other, Read.json_written hg hm.2 hi]⟩

theorem nodup_keys {c : Collection} (hc : c.WellFormed) :
    (c.members.map fun m => m.write.1).Nodup := by
  have hkeys : c.members.map (fun m => m.write.1) =
      (record (σ := Json)).fields ++ c.extra.entries.map (·.1) := by
    simp [members, Member.write, record]
  rw [hkeys]
  exact Record.nodup_append_keys (r := record (σ := Json)) c.extra (by simp [record]) (.refl _)
    fun e he => (hc (.extra e.1 e.2) (by simp [members, he])).1

theorem read_written [LawfulSource σ] {c : Collection} (hg : Json.Rearranges g)
    (hc : c.WellFormed) (h : whole s = .ok (g c.toJson)) : read s = .ok c := by
  obtain ⟨ms, hms, hmem⟩ := record.ofMap_map_written (σ := σ) hg (nodup_keys hc)
    (fun m hm => Member.readsBack hg (hc m hm)) h
  simp [read, hms, ofMembers_eq hmem]

theorem Member.wellFormed_of_read {field : String} {m : Member}
    (hf : field ∈ (record (σ := σ)).fields) (h : Member.read field s = .ok m) : m.WellFormed := by
  simp only [record, List.mem_cons, List.not_mem_nil, or_false] at hf
  rcases hf with rfl | rfl | rfl
  all_goals
    obtain ⟨x, -, rfl⟩ := map_eq_ok h
    trivial

theorem Member.wellFormed_of_other {key : String} {ms : List Member}
    (hkey : (record (σ := σ)).field? key = none) (h : Member.other key s = .ok ms) :
    ∀ m ∈ ms, m.WellFormed := by
  obtain ⟨v, hv, h⟩ := bind_eq_ok h
  cases h
  simpa [WellFormed] using ⟨hkey, Read.sorted_of_json hv⟩

theorem wellFormed_of_read {c : Collection} (h : read s = .ok c) : c.WellFormed := by
  obtain ⟨ms, hms, h⟩ := bind_eq_ok h
  obtain ⟨id, -, h⟩ := bind_eq_ok h
  obtain ⟨name, -, h⟩ := bind_eq_ok h
  cases h
  have hall : ∀ m ∈ ms, m.WellFormed :=
    record.all_of_ofMap hms (by simp [record]) (fun _ hf _ _ => Member.wellFormed_of_read hf)
      fun _ _ _ => Member.wellFormed_of_other
  refine List.forall_mem_append.mpr ⟨?_, Record.all_of_ofList_filterMap hall ?_⟩
  · simp [Member.WellFormed]
  · intro m e he
    cases m with
    | extra => cases he; rfl
    | _ => cases he

end Collection

-- ---------------------------------------------------------------------------
-- Workspaces
-- ---------------------------------------------------------------------------

namespace Workspace

def Member.WellFormed : Member → Prop
  | .wallpaper _ => True
  | .extra key v => (record (σ := Json)).Keeps key v

def WellFormed (w : Workspace) : Prop := ∀ m ∈ w.members, m.WellFormed

theorem ofMembers_eq {w : Workspace} {ms : List Member}
    (h : ∀ m, m ∈ ms ↔ m ∈ w.members ∧ True) : ofMembers ms = w := by
  obtain ⟨wallpaper, extra⟩ := w
  simp only [ofMembers, mk.injEq]
  refine ⟨Record.getD_findSome?_eq h ?_ ?_,
    Record.ofList_filterMap_eq [_] h ?_ fun _ => ⟨rfl, trivial⟩⟩
  all_goals
    simp only [members, List.forall_mem_cons, List.forall_mem_map]
    simp [Member.extra?]

theorem Member.readsBack [LawfulSource σ] {m : Member} (hg : Json.Rearranges g)
    (hm : m.WellFormed) : (record (σ := σ)).ReadsBack g m m.write := by
  intro i hi
  cases m with
  | wallpaper id =>
    exact .inl ⟨by simp [write, record],
      by simp [record, write, read, Read.optional_text_written hg hi]⟩
  | extra key v => exact .inr ⟨hm.1, by simp [record, write, other, Read.json_written hg hm.2 hi]⟩

theorem nodup_keys {w : Workspace} (hw : w.WellFormed) :
    (w.members.map fun m => m.write.1).Nodup := by
  have hkeys : w.members.map (fun m => m.write.1) =
      (record (σ := Json)).fields ++ w.extra.entries.map (·.1) := by
    simp [members, Member.write, record]
  rw [hkeys]
  exact Record.nodup_append_keys (r := record (σ := Json)) w.extra (by simp [record]) (.refl _)
    fun e he => (hw (.extra e.1 e.2) (by simp [members, he])).1

theorem read_written [LawfulSource σ] {w : Workspace} (hg : Json.Rearranges g)
    (hw : w.WellFormed) (h : whole s = .ok (g w.toJson)) : read s = .ok w := by
  obtain ⟨ms, hms, hmem⟩ := record.ofMap_map_written (σ := σ) hg (nodup_keys hw)
    (fun m hm => Member.readsBack hg (hw m hm)) h
  simp [read, hms, ofMembers_eq hmem]

theorem Member.wellFormed_of_read {field : String} {m : Member}
    (hf : field ∈ (record (σ := σ)).fields) (h : Member.read field s = .ok m) : m.WellFormed := by
  simp only [record, List.mem_cons, List.not_mem_nil, or_false] at hf
  subst hf
  obtain ⟨id, -, rfl⟩ := map_eq_ok h
  trivial

theorem Member.wellFormed_of_other {key : String} {ms : List Member}
    (hkey : (record (σ := σ)).field? key = none) (h : Member.other key s = .ok ms) :
    ∀ m ∈ ms, m.WellFormed := by
  obtain ⟨v, hv, h⟩ := bind_eq_ok h
  cases h
  simpa [WellFormed] using ⟨hkey, Read.sorted_of_json hv⟩

theorem wellFormed_of_read {w : Workspace} (h : read s = .ok w) : w.WellFormed := by
  obtain ⟨ms, hms, h⟩ := bind_eq_ok h
  cases h
  have hall : ∀ m ∈ ms, m.WellFormed :=
    record.all_of_ofMap hms (by simp [record]) (fun _ hf _ _ => Member.wellFormed_of_read hf)
      fun _ _ _ => Member.wellFormed_of_other
  refine List.forall_mem_cons.mpr ⟨trivial, Record.all_of_ofList_filterMap hall ?_⟩
  intro m e he
  cases m with
  | wallpaper => cases he
  | extra => cases he; rfl

end Workspace

-- ---------------------------------------------------------------------------
-- Monitors
-- ---------------------------------------------------------------------------

namespace Monitor

def Member.WellFormed : Member → Prop
  | .widgets m => m.All fun b => b.All Json.IsSorted
  | .workspaces m => m.All Workspace.WellFormed
  | .wallpaper _ => True
  | .extra key v => (record (σ := Json)).Keeps key v

def WellFormed (m : Monitor) : Prop := ∀ n ∈ m.members, n.WellFormed

theorem ofMembers_eq {m : Monitor} {ms : List Member}
    (h : ∀ n, n ∈ ms ↔ n ∈ m.members ∧ True) : ofMembers ms = m := by
  obtain ⟨widgets, workspaces, wallpaper, extra⟩ := m
  simp only [ofMembers, mk.injEq]
  refine ⟨Record.getD_findSome?_eq h ?_ ?_, Record.getD_findSome?_eq h ?_ ?_,
    Record.getD_findSome?_eq h ?_ ?_,
    Record.ofList_filterMap_eq [_, _, _] h ?_ fun _ => ⟨rfl, trivial⟩⟩
  all_goals
    simp only [members, List.forall_mem_append, List.forall_mem_cons, List.forall_mem_map]
    simp [Member.extra?]

theorem Member.readsBack [LawfulSource σ] {m : Member} (hg : Json.Rearranges g)
    (hm : m.WellFormed) : (record (σ := σ)).ReadsBack g m m.write := by
  intro i hi
  cases m with
  | widgets ws =>
    have hws := Read.map_written Read.blob _ hg
      (fun e he _ => Read.blob_written hg (hm e he)) hi
    exact .inl ⟨by simp [write, record], by simp [record, write, read, hws]⟩
  | workspaces ws =>
    have hws := Read.map_written Workspace.read _ hg
      (fun e he _ => Workspace.read_written hg (hm e he)) hi
    exact .inl ⟨by simp [write, record], by simp [record, write, read, hws]⟩
  | wallpaper id =>
    exact .inl ⟨by simp [write, record],
      by simp [record, write, read, Read.optional_text_written hg hi]⟩
  | extra key v => exact .inr ⟨hm.1, by simp [record, write, other, Read.json_written hg hm.2 hi]⟩

theorem nodup_keys {m : Monitor} (hm : m.WellFormed) :
    (m.members.map fun n => n.write.1).Nodup := by
  have hkeys : m.members.map (fun n => n.write.1) =
      (record (σ := Json)).fields ++ m.extra.entries.map (·.1) := by
    simp [members, Member.write, record]
  rw [hkeys]
  exact Record.nodup_append_keys (r := record (σ := Json)) m.extra (by simp [record]) (.refl _)
    fun e he => (hm (.extra e.1 e.2) (by simp [members, he])).1

theorem read_written [LawfulSource σ] {m : Monitor} (hg : Json.Rearranges g)
    (hm : m.WellFormed) (h : whole s = .ok (g m.toJson)) : read s = .ok m := by
  obtain ⟨ms, hms, hmem⟩ := record.ofMap_map_written (σ := σ) hg (nodup_keys hm)
    (fun n hn => Member.readsBack hg (hm n hn)) h
  simp [read, hms, ofMembers_eq hmem]

theorem Member.wellFormed_of_read {field : String} {m : Member}
    (hf : field ∈ (record (σ := σ)).fields) (h : Member.read field s = .ok m) : m.WellFormed := by
  simp only [record, List.mem_cons, List.not_mem_nil, or_false] at hf
  rcases hf with rfl | rfl | rfl
  · obtain ⟨ws, hws, rfl⟩ := map_eq_ok h
    exact Read.all_of_map hws fun _ _ => Read.sorted_of_blob
  · obtain ⟨ws, hws, rfl⟩ := map_eq_ok h
    exact Read.all_of_map hws fun _ _ => Workspace.wellFormed_of_read
  · obtain ⟨id, -, rfl⟩ := map_eq_ok h
    trivial

theorem Member.wellFormed_of_other {key : String} {ms : List Member}
    (hkey : (record (σ := σ)).field? key = none) (h : Member.other key s = .ok ms) :
    ∀ m ∈ ms, m.WellFormed := by
  obtain ⟨v, hv, h⟩ := bind_eq_ok h
  cases h
  simpa [WellFormed] using ⟨hkey, Read.sorted_of_json hv⟩

theorem wellFormed_of_read {m : Monitor} (h : read s = .ok m) : m.WellFormed := by
  obtain ⟨ms, hms, h⟩ := bind_eq_ok h
  cases h
  have hall : ∀ m ∈ ms, m.WellFormed :=
    record.all_of_ofMap hms (by simp [record]) (fun _ hf _ _ => Member.wellFormed_of_read hf)
      fun _ _ _ => Member.wellFormed_of_other
  refine List.forall_mem_append.mpr ⟨?_, Record.all_of_ofList_filterMap hall ?_⟩
  · simp only [List.forall_mem_cons, Member.WellFormed]
    refine ⟨Record.all_getD_findSome? Map.all_empty ?_,
      Record.all_getD_findSome? Map.all_empty ?_, trivial, by simp⟩
    all_goals
      intro m hm x hx
      split at hx
      · cases hx
        exact hall _ hm
      · cases hx
  · intro m e he
    cases m with
    | extra => cases he; rfl
    | _ => cases he

end Monitor

-- ---------------------------------------------------------------------------
-- Widgets
-- ---------------------------------------------------------------------------

namespace Widget

def Member.WellFormed : Member → Prop
  | .enabled _ => True
  | .instances m => ∀ m' ∈ m, m'.All fun b => b.All Json.IsSorted
  | .setting key v => (record (σ := Json)).Keeps key v

def WellFormed (w : Widget) : Prop := ∀ m ∈ w.members, m.WellFormed

theorem ofMembers_eq {w : Widget} {ms : List Member}
    (h : ∀ m, m ∈ ms ↔ m ∈ w.members ∧ m.write.isSome) : ofMembers ms = w := by
  obtain ⟨enabled, instances, settings⟩ := w
  simp only [ofMembers, mk.injEq]
  refine ⟨Record.getD_findSome?_eq h ?_ ?_, Record.getD_findSome?_eq h ?_ ?_,
    Record.ofList_filterMap_eq [_, _] h ?_ fun _ => ⟨rfl, rfl⟩⟩
  all_goals
    simp only [members, List.forall_mem_append, List.forall_mem_cons, List.forall_mem_map]
    simp [Member.setting?]
  · cases enabled <;> simp [Member.write]
  · cases instances <;> simp [Member.write]

theorem Member.readsBack [LawfulSource σ] {m : Member} {e : String × Json}
    (hg : Json.Rearranges g) (hm : m.WellFormed) (he : m.write = some e) :
    (record (σ := σ)).ReadsBack g m e := by
  intro i hi
  cases m with
  | enabled b =>
    obtain ⟨b, rfl, rfl⟩ := Option.map_eq_some_iff.mp he
    have hb := Read.optional_written hg (by simp) hi (Read.bool_written hg hi)
    exact .inl ⟨by simp [record], by simp [record, enabledKey, read, hb]⟩
  | instances ws =>
    obtain ⟨ws, rfl, rfl⟩ := Option.map_eq_some_iff.mp he
    have hws := Read.optional_written hg (by simp [Map.toJson]) hi
      (Read.map_written Read.blob _ hg
        (fun e he _ => Read.blob_written hg (hm ws rfl e he)) hi)
    exact .inl ⟨by simp [record], by simp [record, instancesKey, read, hws]⟩
  | setting key v =>
    cases he
    exact .inr ⟨hm.1, by simp [record, other, Read.json_written hg hm.2 hi]⟩

theorem nodup_keys {w : Widget} (hw : w.WellFormed) :
    ((w.members.filterMap Member.write).map (·.1)).Nodup := by
  let keys := (w.enabled.map fun _ => enabledKey).toList ++
    (w.instances.map fun _ => instancesKey).toList
  have hkeys : (w.members.filterMap Member.write).map (·.1) =
      keys ++ w.settings.entries.map (·.1) := by
    cases he : w.enabled <;> cases hi : w.instances <;>
      simp [keys, members, Member.write, he, hi, List.filterMap_cons, List.filterMap_map,
        Function.comp_def]
  have hfields : keys.Sublist (record (σ := Json)).fields := by
    cases he : w.enabled <;> cases hi : w.instances <;> simp [keys, he, hi, record]
  rw [hkeys]
  exact Record.nodup_append_keys (r := record (σ := Json)) w.settings
    (by simp [record, enabledKey, instancesKey]) hfields
    fun e he => (hw (.setting e.1 e.2) (by simp [members, he])).1

theorem read_written [LawfulSource σ] {w : Widget} (hg : Json.Rearranges g) (hw : w.WellFormed)
    (h : whole s = .ok (g w.toJson)) : read s = .ok w := by
  obtain ⟨ms, hms, hmem⟩ := record.ofMap_written (σ := σ) _ hg (nodup_keys hw)
    (fun m hm e he => Member.readsBack hg (hw m hm) he) h
  simp [read, hms, ofMembers_eq hmem]

theorem Member.wellFormed_of_read {field : String} {m : Member}
    (hf : field ∈ (record (σ := σ)).fields) (h : Member.read field s = .ok m) : m.WellFormed := by
  simp only [record, List.mem_cons, List.not_mem_nil, or_false] at hf
  rcases hf with rfl | rfl
  · obtain ⟨b, -, rfl⟩ := map_eq_ok h
    trivial
  · obtain ⟨ws, hws, rfl⟩ := map_eq_ok h
    exact Read.all_of_optional hws fun _ _ h => Read.all_of_map h fun _ _ => Read.sorted_of_blob

theorem Member.wellFormed_of_other {key : String} {ms : List Member}
    (hkey : (record (σ := σ)).field? key = none) (h : Member.other key s = .ok ms) :
    ∀ m ∈ ms, m.WellFormed := by
  obtain ⟨v, hv, h⟩ := bind_eq_ok h
  cases h
  simpa [WellFormed] using ⟨hkey, Read.sorted_of_json hv⟩

theorem wellFormed_of_read {w : Widget} (h : read s = .ok w) : w.WellFormed := by
  obtain ⟨ms, hms, h⟩ := bind_eq_ok h
  cases h
  have hall : ∀ m ∈ ms, m.WellFormed :=
    record.all_of_ofMap hms (by simp [record]) (fun _ hf _ _ => Member.wellFormed_of_read hf)
      fun _ _ _ => Member.wellFormed_of_other
  refine List.forall_mem_append.mpr ⟨?_, Record.all_of_ofList_filterMap hall ?_⟩
  · simp only [List.forall_mem_cons, Member.WellFormed]
    refine ⟨trivial, ?_, by simp⟩
    refine Record.all_getD_findSome? (P := fun o => ∀ m ∈ o, Map.All _ m) (by simp) ?_
    intro m hm x hx
    split at hx
    · cases hx
      exact hall _ hm
    · cases hx
  · intro m e he
    cases m with
    | setting => cases he; rfl
    | _ => cases he

end Widget

-- ---------------------------------------------------------------------------
-- The document
-- ---------------------------------------------------------------------------

namespace Document

def Member.WellFormed : Member → Prop
  | .widgets m => m.All Widget.WellFormed
  | .monitors m => m.All Monitor.WellFormed
  | .collections cs => ∀ c ∈ cs, c.WellFormed
  | .shortcuts b => b.All Json.IsSorted
  | .updater u => u.WellFormed
  | .extra key v => (record (σ := Json)).Keeps key v
  | _ => True

def WellFormed (d : Document) : Prop := ∀ m ∈ d.members, m.WellFormed

theorem ofMembers_eq {d : Document} {ms : List Member}
    (h : ∀ m, m ∈ ms ↔ m ∈ d.members ∧ True) : ofMembers ms = d := by
  obtain ⟨widgets, monitors, collections, wallpaper, themes, iconPacks, language, dateFormat,
    shortcuts, performance, desktops, hardwareAcceleration, updater, extra⟩ := d
  simp only [ofMembers, mk.injEq]
  refine ⟨Record.getD_findSome?_eq h ?_ ?_, Record.getD_findSome?_eq h ?_ ?_,
    Record.getD_findSome?_eq h ?_ ?_, Record.getD_findSome?_eq h ?_ ?_,
    Record.getD_findSome?_eq h ?_ ?_, Record.getD_findSome?_eq h ?_ ?_,
    Record.getD_findSome?_eq h ?_ ?_, Record.getD_findSome?_eq h ?_ ?_,
    Record.getD_findSome?_eq h ?_ ?_, Record.getD_findSome?_eq h ?_ ?_,
    Record.getD_findSome?_eq h ?_ ?_, Record.getD_findSome?_eq h ?_ ?_,
    Record.getD_findSome?_eq h ?_ ?_,
    Record.ofList_filterMap_eq [_, _, _, _, _, _, _, _, _, _, _, _, _] h ?_
      fun _ => ⟨rfl, trivial⟩⟩
  all_goals
    simp only [members, List.forall_mem_append, List.forall_mem_cons, List.forall_mem_map]
    simp [Member.extra?]

theorem Member.readsBack [LawfulSource σ] {m : Member} (hg : Json.Rearranges g)
    (hm : m.WellFormed) : (record (σ := σ)).ReadsBack g m m.write := by
  intro i hi
  have hfield : m.write.1 ∈ (record (σ := σ)).fields ∨ ∃ key v, m = .extra key v := by
    cases m <;> simp [write, record]
  rcases hfield with hfield | ⟨key, v, rfl⟩
  · refine .inl ⟨hfield, ?_⟩
    cases m with
    | widgets ws =>
      have hws := Read.map_written Widget.read _ hg
        (fun e he _ => Widget.read_written hg (hm e he)) hi
      simp [record, write, read, hws]
    | monitors ws =>
      have hws := Read.map_written Monitor.read _ hg
        (fun e he _ => Monitor.read_written hg (hm e he)) hi
      simp [record, write, read, hws]
    | collections cs =>
      have hcs := Read.list_written Collection.read _ hg
        (fun c hc _ => Collection.read_written hg (hm c hc)) hi
      simp [record, write, read, hcs]
    | wallpaper id => simp [record, write, read, Read.optional_text_written hg hi]
    | themes ids | iconPacks ids =>
      have hids := Read.list_written Read.text .str hg
        (fun _ _ _ => Read.text_written hg) hi
      simp [record, write, read, hids]
    | language t | dateFormat t => simp [record, write, read, Read.text_written hg hi]
    | shortcuts b => simp [record, write, read, Read.blob_written hg hm hi]
    | performance p =>
      have hp := Read.name_written PerformanceMode.table (a := p) hg
        (by cases p <;> rfl) hi
      simp [record, write, read, hp]
    | desktops d =>
      have hd := Read.name_written DesktopStrategy.table (a := d) hg
        (by cases d <;> rfl) hi
      simp [record, write, read, hd]
    | hardwareAcceleration b => simp [record, write, read, Read.bool_written hg hi]
    | updater u => simp [record, write, read, Updater.read_written hg hm hi]
    | extra key v =>
      have hnone : (record (σ := σ)).field? key = none := hm.1
      simp only [write] at hfield
      simp [Record.field?, hfield] at hnone
  · exact .inr ⟨hm.1, by simp [record, write, other, Read.json_written hg hm.2 hi]⟩

theorem nodup_keys {d : Document} (hd : d.WellFormed) :
    (d.members.map fun m => m.write.1).Nodup := by
  have hkeys : d.members.map (fun m => m.write.1) =
      (record (σ := Json)).fields ++ d.extra.entries.map (·.1) := by
    simp [members, Member.write, record]
  rw [hkeys]
  exact Record.nodup_append_keys (r := record (σ := Json)) d.extra (by simp [record]) (.refl _)
    fun e he => (hd (.extra e.1 e.2) (by simp [members, he])).1

theorem read_written [LawfulSource σ] {d : Document} (hg : Json.Rearranges g)
    (hd : d.WellFormed) (h : whole s = .ok (g d.toJson)) : read s = .ok d := by
  obtain ⟨ms, hms, hmem⟩ := record.ofMap_map_written (σ := σ) hg (nodup_keys hd)
    (fun m hm => Member.readsBack hg (hd m hm)) h
  simp [read, hms, ofMembers_eq hmem]

theorem Member.wellFormed_of_read {field : String} {m : Member}
    (hf : field ∈ (record (σ := σ)).fields) (h : Member.read field s = .ok m) : m.WellFormed := by
  simp only [record, List.mem_cons, List.not_mem_nil, or_false] at hf
  rcases hf with rfl | rfl | rfl | rfl | rfl | rfl | rfl | rfl | rfl | rfl | rfl | rfl | rfl
  all_goals obtain ⟨x, hx, rfl⟩ := map_eq_ok h
  all_goals first
    | trivial
    | exact Read.all_of_map hx fun _ _ => Widget.wellFormed_of_read
    | exact Read.all_of_map hx fun _ _ => Monitor.wellFormed_of_read
    | exact Read.all_of_list hx fun _ _ => Collection.wellFormed_of_read
    | exact Read.sorted_of_blob hx
    | exact Updater.wellFormed_of_read hx

theorem Member.wellFormed_of_other {key : String} {ms : List Member}
    (hkey : (record (σ := σ)).field? key = none) (h : Member.other key s = .ok ms) :
    ∀ m ∈ ms, m.WellFormed := by
  obtain ⟨v, hv, h⟩ := bind_eq_ok h
  cases h
  simpa [WellFormed] using ⟨hkey, Read.sorted_of_json hv⟩

theorem wellFormed_default : ({} : Document).WellFormed := by
  refine List.forall_mem_append.mpr ⟨?_, List.forall_mem_map.mpr nofun⟩
  simp only [List.forall_mem_cons, Member.WellFormed]
  exact ⟨Map.all_empty, Map.all_empty, nofun, trivial, trivial, trivial, trivial, trivial,
    Map.all_empty, trivial, trivial, trivial, Updater.wellFormed_default, nofun⟩

theorem wellFormed_of_read {d : Document} (h : read s = .ok d) : d.WellFormed := by
  obtain ⟨ms, hms, h⟩ := bind_eq_ok h
  cases h
  have hall : ∀ m ∈ ms, m.WellFormed :=
    record.all_of_ofMap hms (by simp [record]) (fun _ hf _ _ => Member.wellFormed_of_read hf)
      fun _ _ _ => Member.wellFormed_of_other
  refine List.forall_mem_append.mpr ⟨?_, Record.all_of_ofList_filterMap hall ?_⟩
  · simp only [List.forall_mem_cons, Member.WellFormed]
    refine ⟨Record.all_getD_findSome? Map.all_empty ?_,
      Record.all_getD_findSome? Map.all_empty ?_,
      Record.all_getD_findSome? (P := fun cs => ∀ c ∈ cs, Collection.WellFormed c) nofun ?_,
      trivial, trivial, trivial, trivial, trivial,
      Record.all_getD_findSome? Map.all_empty ?_, trivial, trivial, trivial,
      Record.all_getD_findSome? Updater.wellFormed_default ?_, nofun⟩
    all_goals
      intro m hm x hx
      split at hx
      · cases hx
        exact hall _ hm
      · cases hx
  · intro m e he
    cases m with
    | extra => cases he; rfl
    | _ => cases he

theorem ofJson?_toValue {d : Document} (hd : d.WellFormed) : ofJson? d.toValue = .ok d :=
  read_written Json.rearranges_sorted hd rfl

theorem ofJson?_toJson {d : Document} (hd : d.WellFormed) : ofJson? d.toJson = .ok d :=
  read_written Json.rearranges_id hd rfl

end Document

end ShellSettings
