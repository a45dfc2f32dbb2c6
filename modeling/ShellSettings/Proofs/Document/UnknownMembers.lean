import ShellSettings.Proofs.Document.RoundTrip
import ShellSettings.Proofs.Json.LookupLaws

/-!
# Members that no record knows

Six kinds of records are read, some inside others, and each keeps the members that
it does not know. So whatever stands in a value under such a key, in whichever
record, stands there again in the value of the document that was read from it
(`Document.unknown_kept`).
-/

namespace ShellSettings

variable {v r x : Json} {key : String}

theorem Json.get?_written {μ : Type} {write : μ → String × Json} {members : List μ} {m : μ}
    (hkeys : (members.map fun m => (write m).1).Nodup) (hm : m ∈ members) :
    (Json.obj (members.map write)).sorted.get? (write m).1 = some (write m).2.sorted :=
  get?_sorted_of_mem (by simpa [Function.comp_def] using hkeys) (List.mem_map_of_mem hm)

theorem Map.get?_toJson {α : Type} (write : α → Json) (m : Map α) (key : String) :
    (m.toJson write).sorted.get? key = (m.get? key).map fun a => (write a).sorted := by
  rw [Map.toJson, Json.get?_sorted_obj, Map.ofList_map write, Map.get?_map, Map.ofList_entries,
    Option.map_map]
  rfl

-- ---------------------------------------------------------------------------
-- Each record
-- ---------------------------------------------------------------------------

namespace Updater

theorem setsAside : (record (σ := Json)).SetsAside Member.extra? where
  field hf h := by
    simp only [record, List.mem_cons, List.not_mem_nil, or_false] at hf
    subst hf
    obtain ⟨_, -, rfl⟩ := map_eq_ok h
    rfl
  other h := by
    cases h
    rfl
  aliases := by simp [record]

theorem extra_of_read {u : Updater} (h : read v = .ok u)
    (hkey : (record (σ := Json)).field? key = none) : u.extra.get? key = v.sorted.get? key := by
  obtain ⟨ms, hms, h⟩ := bind_eq_ok h
  cases h
  exact setsAside.get?_eq hms hkey

theorem get?_extra {u : Updater} (hu : u.WellFormed) (h : u.extra.get? key = some x) :
    u.toJson.sorted.get? key = some x := by
  have hm : .extra key x ∈ u.members := by simp [members, Map.mem_entries.mpr h]
  exact (Json.get?_written (nodup_keys hu) hm).trans (congrArg some (hu _ hm).2)

end Updater

namespace Collection

theorem setsAside : (record (σ := Json)).SetsAside Member.extra? where
  field hf h := by
    simp only [record, List.mem_cons, List.not_mem_nil, or_false] at hf
    rcases hf with rfl | rfl | rfl
    all_goals
      obtain ⟨_, -, rfl⟩ := map_eq_ok h
      rfl
  other h := by
    cases h
    rfl
  aliases := by simp [record]

theorem extra_of_read {c : Collection} (h : read v = .ok c)
    (hkey : (record (σ := Json)).field? key = none) : c.extra.get? key = v.sorted.get? key := by
  obtain ⟨ms, hms, h⟩ := bind_eq_ok h
  obtain ⟨id, -, h⟩ := bind_eq_ok h
  obtain ⟨name, -, h⟩ := bind_eq_ok h
  cases h
  exact setsAside.get?_eq hms hkey

theorem get?_extra {c : Collection} (hc : c.WellFormed) (h : c.extra.get? key = some x) :
    c.toJson.sorted.get? key = some x := by
  have hm : .extra key x ∈ c.members := by simp [members, Map.mem_entries.mpr h]
  exact (Json.get?_written (nodup_keys hc) hm).trans (congrArg some (hc _ hm).2)

end Collection

namespace Workspace

theorem setsAside : (record (σ := Json)).SetsAside Member.extra? where
  field hf h := by
    simp only [record, List.mem_cons, List.not_mem_nil, or_false] at hf
    subst hf
    obtain ⟨_, -, rfl⟩ := map_eq_ok h
    rfl
  other h := by
    cases h
    rfl
  aliases := by simp [record]

theorem extra_of_read {w : Workspace} (h : read v = .ok w)
    (hkey : (record (σ := Json)).field? key = none) : w.extra.get? key = v.sorted.get? key := by
  obtain ⟨ms, hms, h⟩ := bind_eq_ok h
  cases h
  exact setsAside.get?_eq hms hkey

theorem get?_extra {w : Workspace} (hw : w.WellFormed) (h : w.extra.get? key = some x) :
    w.toJson.sorted.get? key = some x := by
  have hm : .extra key x ∈ w.members := by simp [members, Map.mem_entries.mpr h]
  exact (Json.get?_written (nodup_keys hw) hm).trans (congrArg some (hw _ hm).2)

end Workspace

namespace Monitor

theorem setsAside : (record (σ := Json)).SetsAside Member.extra? where
  field hf h := by
    simp only [record, List.mem_cons, List.not_mem_nil, or_false] at hf
    rcases hf with rfl | rfl | rfl
    all_goals
      obtain ⟨_, -, rfl⟩ := map_eq_ok h
      rfl
  other h := by
    cases h
    rfl
  aliases := by simp [record]

theorem extra_of_read {m : Monitor} (h : read v = .ok m)
    (hkey : (record (σ := Json)).field? key = none) : m.extra.get? key = v.sorted.get? key := by
  obtain ⟨ms, hms, h⟩ := bind_eq_ok h
  cases h
  exact setsAside.get?_eq hms hkey

theorem get?_extra {m : Monitor} (hm : m.WellFormed) (h : m.extra.get? key = some x) :
    m.toJson.sorted.get? key = some x := by
  have hn : .extra key x ∈ m.members := by simp [members, Map.mem_entries.mpr h]
  exact (Json.get?_written (nodup_keys hm) hn).trans (congrArg some (hm _ hn).2)

theorem Member.key_of_read {field : String} {n : Member} (h : Member.read field v = .ok n) :
    n.write.1 = field := by
  unfold Member.read at h
  split at h
  all_goals
    obtain ⟨_, -, rfl⟩ := map_eq_ok h
    rfl

theorem gives {β : Type} {field : String} {f : Member → Option β}
    (hkey : ∀ m b, f m = some b → m.write.1 = field) (hextra : ∀ key x, f (.extra key x) = none) :
    (record (σ := Json)).Gives field f where
  field hm hf := (Member.key_of_read hm).symm.trans (hkey _ _ hf)
  other h := by
    cases h
    exact List.forall_mem_singleton.mpr (hextra _ _)

theorem workspaces_of_read {m : Monitor} (h : read v = .ok m)
    (hkey : (record (σ := Json)).field? key = some "byWorkspace")
    (hx : v.sorted.get? key = some x) :
    ∃ x₀ : Json, x₀.sorted = x ∧ Read.map Workspace.read x₀ = .ok m.workspaces := by
  obtain ⟨ms, hms, h⟩ := bind_eq_ok h
  cases h
  exact (gives (fun n _ hf => by cases n <;> cases hf; rfl) fun _ _ => rfl).exists_read
    .workspaces (fun _ => rfl) (fun _ => rfl) hms hx hkey ∅

end Monitor

namespace Widget

theorem setsAside : (record (σ := Json)).SetsAside Member.setting? where
  field hf h := by
    simp only [record, List.mem_cons, List.not_mem_nil, or_false] at hf
    rcases hf with rfl | rfl
    all_goals
      obtain ⟨_, -, rfl⟩ := map_eq_ok h
      rfl
  other h := by
    cases h
    rfl
  aliases := by simp [record]

theorem settings_of_read {w : Widget} (h : read v = .ok w)
    (hkey : (record (σ := Json)).field? key = none) : w.settings.get? key = v.sorted.get? key := by
  obtain ⟨ms, hms, h⟩ := bind_eq_ok h
  cases h
  exact setsAside.get?_eq hms hkey

theorem get?_settings {w : Widget} (hw : w.WellFormed) (h : w.settings.get? key = some x) :
    w.toJson.sorted.get? key = some x := by
  have hm : .setting key x ∈ w.members := by simp [members, Map.mem_entries.mpr h]
  have hwritten : (key, x) ∈ w.members.filterMap Member.write := List.mem_filterMap.mpr ⟨_, hm, rfl⟩
  exact (Json.get?_sorted_of_mem (nodup_keys hw) hwritten).trans (congrArg some (hw _ hm).2)

end Widget

namespace Document

theorem setsAside : (record (σ := Json)).SetsAside Member.extra? where
  field hf h := by
    simp only [record, List.mem_cons, List.not_mem_nil, or_false] at hf
    rcases hf with rfl | rfl | rfl | rfl | rfl | rfl | rfl | rfl | rfl | rfl | rfl | rfl | rfl
    all_goals
      obtain ⟨_, -, rfl⟩ := map_eq_ok h
      rfl
  other h := by
    cases h
    rfl
  aliases := by simp [record]

variable {d : Document}

theorem extra_of_read (h : read v = .ok d) (hkey : (record (σ := Json)).field? key = none) :
    d.extra.get? key = v.sorted.get? key := by
  obtain ⟨ms, hms, h⟩ := bind_eq_ok h
  cases h
  exact setsAside.get?_eq hms hkey

theorem get?_extra (hd : d.WellFormed) (h : d.extra.get? key = some x) :
    d.toValue.get? key = some x := by
  have hm : .extra key x ∈ d.members := by simp [members, Map.mem_entries.mpr h]
  exact (Json.get?_written (nodup_keys hd) hm).trans (congrArg some (hd _ hm).2)

theorem Member.key_of_read {field : String} {m : Member} (h : Member.read field v = .ok m) :
    m.write.1 = field := by
  unfold Member.read at h
  split at h
  all_goals
    obtain ⟨_, -, rfl⟩ := map_eq_ok h
    rfl

theorem gives {β : Type} {field : String} {f : Member → Option β}
    (hkey : ∀ m b, f m = some b → m.write.1 = field) (hextra : ∀ key x, f (.extra key x) = none) :
    (record (σ := Json)).Gives field f where
  field hm hf := (Member.key_of_read hm).symm.trans (hkey _ _ hf)
  other h := by
    cases h
    exact List.forall_mem_singleton.mpr (hextra _ _)

theorem field_of_read {β : Type} (make : β → Member) {field : String} {f : Member → Option β}
    {read : Json → Read β} {ms : List Member} {start : β}
    (hread : ∀ i, Member.read field i = make <$> read i) (hmake : ∀ b, f (make b) = some b)
    (hkey : ∀ m b, f m = some b → m.write.1 = field) (hextra : ∀ key x, f (.extra key x) = none)
    (hfield : (record (σ := Json)).field? field = some field)
    (h : (record (σ := Json)).ofMap v = .ok ms) (hx : v.sorted.get? field = some x) :
    ∃ x₀ : Json, x₀.sorted = x ∧ read x₀ = .ok ((ms.findSome? f).getD start) :=
  (gives hkey hextra).exists_read make hread hmake h hx hfield start

theorem widgets_of_read (h : read v = .ok d) (hx : v.sorted.get? "byWidget" = some x) :
    ∃ x₀ : Json, x₀.sorted = x ∧ Read.map Widget.read x₀ = .ok d.widgets := by
  obtain ⟨ms, hms, h⟩ := bind_eq_ok h
  cases h
  exact field_of_read .widgets (fun _ => rfl) (fun _ => rfl)
    (fun m _ h => by cases m <;> cases h; rfl) (fun _ _ => rfl) rfl hms hx

theorem monitors_of_read (h : read v = .ok d) (hx : v.sorted.get? "monitors" = some x) :
    ∃ x₀ : Json, x₀.sorted = x ∧ Read.map Monitor.read x₀ = .ok d.monitors := by
  obtain ⟨ms, hms, h⟩ := bind_eq_ok h
  cases h
  exact field_of_read .monitors (fun _ => rfl) (fun _ => rfl)
    (fun m _ h => by cases m <;> cases h; rfl) (fun _ _ => rfl) rfl hms hx

theorem collections_of_read (h : read v = .ok d) (hx : v.sorted.get? "collections" = some x) :
    ∃ x₀ : Json, x₀.sorted = x ∧ Read.list Collection.read x₀ = .ok d.collections := by
  obtain ⟨ms, hms, h⟩ := bind_eq_ok h
  cases h
  exact field_of_read .collections (fun _ => rfl) (fun _ => rfl)
    (fun m _ h => by cases m <;> cases h; rfl) (fun _ _ => rfl) rfl hms hx

theorem updater_of_read (h : read v = .ok d) (hx : v.sorted.get? "updater" = some x) :
    ∃ x₀ : Json, x₀.sorted = x ∧ Updater.read x₀ = .ok d.updater := by
  obtain ⟨ms, hms, h⟩ := bind_eq_ok h
  cases h
  exact field_of_read .updater (fun _ => rfl) (fun _ => rfl)
    (fun m _ h => by cases m <;> cases h; rfl) (fun _ _ => rfl) rfl hms hx

end Document

-- ---------------------------------------------------------------------------
-- Places of records
-- ---------------------------------------------------------------------------

inductive RecordPlace where
  | document
  | updater
  | collection (index : Nat)
  | widget (id : String)
  | monitor (id : String)
  | workspace (monitor id : String)

def RecordPlace.field? : RecordPlace → String → Option String
  | .document => (Document.record (σ := Json)).field?
  | .updater => (Updater.record (σ := Json)).field?
  | .collection _ => (Collection.record (σ := Json)).field?
  | .widget _ => (Widget.record (σ := Json)).field?
  | .monitor _ => (Monitor.record (σ := Json)).field?
  | .workspace _ _ => (Workspace.record (σ := Json)).field?

/-- The workspaces of a monitor, under either name. -/
def Json.workspaces? (monitor : Json) : Option Json :=
  (monitor.get? "byWorkspace").or (monitor.get? "workspaces")

def Json.record? (v : Json) : RecordPlace → Option Json
  | .document => some v
  | .updater => v.get? "updater"
  | .collection index => (v.get? "collections").bind (·.item? index)
  | .widget id => (v.get? "byWidget").bind (·.get? id)
  | .monitor id => (v.get? "monitors").bind (·.get? id)
  | .workspace monitor id =>
    (((v.get? "monitors").bind (·.get? monitor)).bind (·.workspaces?)).bind (·.get? id)

namespace Document

variable {d : Document} {place : RecordPlace} {rest : Blob}

def rest? (d : Document) : RecordPlace → Option Blob
  | .document => some d.extra
  | .updater => some d.updater.extra
  | .collection index => d.collections[index]?.map (·.extra)
  | .widget id => (d.widgets.get? id).map (·.settings)
  | .monitor id => (d.monitors.get? id).map (·.extra)
  | .workspace monitor id =>
    ((d.monitors.get? monitor).bind (·.workspaces.get? id)).map (·.extra)

theorem monitor_of_read {id : String} (h : read v = .ok d)
    (hr : (v.sorted.get? "monitors").bind (·.get? id) = some r) :
    ∃ (r₀ : Json) (m : Monitor), r₀.sorted = r ∧ Monitor.read r₀ = .ok m ∧
      d.monitors.get? id = some m := by
  obtain ⟨b, hb, hr⟩ := Option.bind_eq_some_iff.mp hr
  obtain ⟨b₀, rfl, hmonitors⟩ := monitors_of_read h hb
  exact Read.get?_of_map hmonitors hr

theorem rest_of_read (h : read v = .ok d) (hr : v.sorted.record? place = some r) :
    ∃ rest, d.rest? place = some rest ∧
      ∀ key, place.field? key = none → rest.get? key = r.get? key := by
  cases place with
  | document =>
    cases hr
    exact ⟨_, rfl, fun key => extra_of_read h⟩
  | updater =>
    obtain ⟨r₀, rfl, hu⟩ := updater_of_read h hr
    exact ⟨_, rfl, fun key => Updater.extra_of_read hu⟩
  | collection index =>
    obtain ⟨b, hb, hr⟩ := Option.bind_eq_some_iff.mp hr
    obtain ⟨b₀, rfl, hcollections⟩ := collections_of_read h hb
    obtain ⟨r₀, c, rfl, hc, hget⟩ := Read.item?_of_list hcollections hr
    exact ⟨_, by simp [rest?, hget], fun key => Collection.extra_of_read hc⟩
  | widget id =>
    obtain ⟨b, hb, hr⟩ := Option.bind_eq_some_iff.mp hr
    obtain ⟨b₀, rfl, hwidgets⟩ := widgets_of_read h hb
    obtain ⟨r₀, w, rfl, hw, hget⟩ := Read.get?_of_map hwidgets hr
    exact ⟨_, by simp [rest?, hget], fun key => Widget.settings_of_read hw⟩
  | monitor id =>
    obtain ⟨r₀, m, rfl, hm, hget⟩ := monitor_of_read h hr
    exact ⟨_, by simp [rest?, hget], fun key => Monitor.extra_of_read hm⟩
  | workspace monitor id =>
    obtain ⟨b, hb, hr⟩ := Option.bind_eq_some_iff.mp hr
    obtain ⟨r₁, hr₁, hb⟩ := Option.bind_eq_some_iff.mp hb
    obtain ⟨r₀, m, rfl, hm, hget⟩ := monitor_of_read h hr₁
    obtain ⟨b₀, rfl, hworkspaces⟩ : ∃ b₀ : Json, b₀.sorted = b ∧
        Read.map Workspace.read b₀ = .ok m.workspaces := by
      rcases Option.or_eq_some_iff.mp hb with hb | ⟨-, hb⟩
      · exact Monitor.workspaces_of_read hm rfl hb
      · exact Monitor.workspaces_of_read hm rfl hb
    obtain ⟨r₀, w, rfl, hw, hgetw⟩ := Read.get?_of_map hworkspaces hr
    exact ⟨_, by simp [rest?, hget, hgetw], fun key => Workspace.extra_of_read hw⟩

theorem monitor_toValue {id : String} {m : Monitor} (hd : d.WellFormed)
    (hm : d.monitors.get? id = some m) :
    (d.toValue.get? "monitors").bind (·.get? id) = some m.toJson.sorted := by
  have hin : .monitors d.monitors ∈ d.members := by simp [members]
  have hget := Json.get?_written (nodup_keys hd) hin
  refine Option.bind_eq_some_iff.mpr ⟨_, hget, ?_⟩
  exact (Map.get?_toJson _ _ _).trans (congrArg (Option.map _) hm)

theorem record?_toValue (hd : d.WellFormed) (hrest : d.rest? place = some rest) :
    ∃ r, d.toValue.record? place = some r ∧
      ∀ key x, rest.get? key = some x → r.get? key = some x := by
  have hwritten : ∀ m ∈ d.members, d.toValue.get? m.write.1 = some m.write.2.sorted :=
    fun m hm => Json.get?_written (nodup_keys hd) hm
  have hmonitors := hd (.monitors d.monitors) (by simp [members])
  cases place with
  | document =>
    cases hrest
    exact ⟨_, rfl, fun key x => get?_extra hd⟩
  | updater =>
    cases hrest
    have hu := hd (.updater d.updater) (by simp [members])
    exact ⟨_, hwritten (.updater d.updater) (by simp [members]), fun key x => Updater.get?_extra hu⟩
  | collection index =>
    obtain ⟨c, hc, rfl⟩ := Option.map_eq_some_iff.mp hrest
    have hcollections := hd (.collections d.collections) (by simp [members])
    have hget := hwritten (.collections d.collections) (by simp [members])
    refine ⟨c.toJson.sorted, Option.bind_eq_some_iff.mpr ⟨_, hget, ?_⟩, fun key x => ?_⟩
    · simp [Member.write, Json.sorted, Json.sortedItems_eq_map, Json.item?, hc]
    · exact Collection.get?_extra (hcollections c (List.mem_of_getElem? hc))
  | widget id =>
    obtain ⟨w, hw, rfl⟩ := Option.map_eq_some_iff.mp hrest
    have hwidgets := hd (.widgets d.widgets) (by simp [members])
    have hget := hwritten (.widgets d.widgets) (by simp [members])
    refine ⟨w.toJson.sorted, Option.bind_eq_some_iff.mpr ⟨_, hget, ?_⟩, fun key x => ?_⟩
    · exact (Map.get?_toJson _ _ _).trans (congrArg (Option.map _) hw)
    · exact Widget.get?_settings (hwidgets.get? hw)
  | monitor id =>
    obtain ⟨m, hm, rfl⟩ := Option.map_eq_some_iff.mp hrest
    exact ⟨m.toJson.sorted, monitor_toValue hd hm,
      fun key x => Monitor.get?_extra (hmonitors.get? hm)⟩
  | workspace monitor id =>
    obtain ⟨w, hw, rfl⟩ := Option.map_eq_some_iff.mp hrest
    obtain ⟨m, hm, hw⟩ := Option.bind_eq_some_iff.mp hw
    have hmonitor := hmonitors.get? hm
    have hin : .workspaces m.workspaces ∈ m.members := by simp [Monitor.members]
    have hworkspaces := hmonitor _ hin
    have hwritten := Json.get?_written (Monitor.nodup_keys hmonitor) hin
    have hget : m.toJson.sorted.workspaces? =
        some (m.workspaces.toJson Workspace.toJson).sorted :=
      Option.or_eq_some_iff.mpr (.inl hwritten)
    refine ⟨w.toJson.sorted, ?_, fun key x => Workspace.get?_extra (hworkspaces.get? hw)⟩
    refine Option.bind_eq_some_iff.mpr ⟨_, Option.bind_eq_some_iff.mpr
      ⟨_, monitor_toValue hd hm, hget⟩, ?_⟩
    exact (Map.get?_toJson _ _ _).trans (congrArg (Option.map _) hw)

/-- Under a key that its record does not know, what stood in the value stands in the value of the
document. -/
theorem unknown_kept (h : ofJson? v = .ok d) (hr : v.sorted.record? place = some r)
    (hkey : place.field? key = none) (hx : r.get? key = some x) :
    ∃ r', d.toValue.record? place = some r' ∧ r'.get? key = some x := by
  obtain ⟨rest, hrest, hget⟩ := rest_of_read h hr
  obtain ⟨r', hr', hkept⟩ := record?_toValue (wellFormed_of_read h) hrest
  exact ⟨r', hr', hkept key x ((hget key hkey).trans hx)⟩

end Document

end ShellSettings
