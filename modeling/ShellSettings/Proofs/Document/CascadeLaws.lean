import ShellSettings.Proofs.Document.MergeLaws

/-!
# The cascade key by key

A merged configuration has under each key, whole, what the last level has that has
the key at all (`Blob.get?_mergeLevels`). So the configuration of a widget in one
place can be told key by key from what the document says about the widget itself, the
instance and the monitor (`Document.settingAt`), and nothing else in the document has a
part in it (`Document.effective_cascade`). What the cascade makes of the two reserved keys
is in `Document.effective_reserved_keys`.
-/

namespace ShellSettings

namespace Document

variable {d e : Document} {p : Placement} {widget id key : String} {monitor : Option String}

-- ---------------------------------------------------------------------------
-- What a document says about a widget
-- ---------------------------------------------------------------------------

/-- Whether the widget's own level lets it run: one without an entry, or that does not say, runs. -/
def runs (d : Document) (widget : String) : Bool :=
  ((d.widgets.get? widget).bind (·.enabled)).getD true

def ownSetting (d : Document) (widget key : String) : Option Json :=
  (d.widgets.get? widget).bind (·.settings.get? key)

/-- Everything that an instance overrides, whether it counts or not. -/
def overrides (d : Document) (widget id : String) : Option Blob :=
  (d.widgets.get? widget).bind (·.instance? id)

theorem get?_ownLevel : (d.ownLevel widget).get? key =
    if key = Widget.enabledKey then some (.bool (d.runs widget))
    else if key = Widget.instancesKey then none
    else d.ownSetting widget key := by
  rw [ownLevel, Map.get?_insert, Map.get?_erase]
  cases h : d.widgets.get? widget <;> simp [runs, ownSetting, Widget.isEnabled, h]

theorem get?_instanceLevel : (d.instanceLevel widget id).bind (·.get? key) =
    if key = Widget.enabledKey then none else (d.overrides widget id).bind (·.get? key) := by
  rw [instanceLevel, ← overrides]
  cases d.overrides widget id <;> simp

-- ---------------------------------------------------------------------------
-- Each key
-- ---------------------------------------------------------------------------

/-- What a widget has under a key in one place. The monitor decides first. Whether the widget runs
is then its own affair, and every other key the instance's before it is the widget's own. -/
def settingAt (d : Document) (p : Placement) (key : String) : Option Json :=
  (p.monitor.bind fun m => (d.monitorLevel p.widget m).bind (·.get? key)) <|>
    if key = Widget.enabledKey then some (.bool (d.runs p.widget))
    else
      (p.instanceId.bind fun id => (d.overrides p.widget id).bind (·.get? key)) <|>
        if key = Widget.instancesKey then none else d.ownSetting p.widget key

theorem get?_effective_levels : (d.effective p).config.get? key =
    ((p.monitor.bind (d.monitorLevel p.widget)).bind (·.get? key)).or
      (((p.instanceId.bind (d.instanceLevel p.widget)).bind (·.get? key)).or
        ((d.ownLevel p.widget).get? key)) := by
  have hcons : ∀ (level : Option Blob) levels,
      ((level :: levels).findSome? fun level => level.bind (·.get? key)) =
        (level.bind (·.get? key)).or (levels.findSome? fun level => level.bind (·.get? key)) := by
    intro level levels
    cases h : level.bind (·.get? key) <;> simp [h]
  rw [effective, Blob.get?_mergeLevels]
  simp only [List.reverse_cons, List.reverse_nil, List.nil_append, List.cons_append, hcons,
    List.findSome?_nil, Option.or_none, Option.bind_some]

theorem get?_effective : (d.effective p).config.get? key = d.settingAt p key := by
  have hmonitor : (p.monitor.bind (d.monitorLevel p.widget)).bind (·.get? key) =
      p.monitor.bind fun m => (d.monitorLevel p.widget m).bind (·.get? key) := Option.bind_assoc ..
  have hinstance : (p.instanceId.bind (d.instanceLevel p.widget)).bind (·.get? key) =
      if key = Widget.enabledKey then none
      else p.instanceId.bind fun id => (d.overrides p.widget id).bind (·.get? key) := by
    rw [Option.bind_assoc]
    simp only [get?_instanceLevel]
    split
    · cases p.instanceId <;> rfl
    · rfl
  rw [get?_effective_levels, hmonitor, hinstance, get?_ownLevel, settingAt]
  split <;> simp

-- ---------------------------------------------------------------------------
-- What has no part in it
-- ---------------------------------------------------------------------------

/-- Two documents say the same about a widget, an instance of it and a monitor, whatever they say
about others. -/
structure Alike (p : Placement) (d e : Document) : Prop where
  own : (d.widgets.get? p.widget).map (fun w => (w.enabled, w.settings)) =
    (e.widgets.get? p.widget).map fun w => (w.enabled, w.settings)
  ofInstance : ∀ id ∈ p.instanceId, d.overrides p.widget id = e.overrides p.widget id
  onMonitor : ∀ m ∈ p.monitor, d.monitorLevel p.widget m = e.monitorLevel p.widget m

theorem Alike.settingAt (h : Alike p d e) : d.settingAt p key = e.settingAt p key := by
  have hruns : d.runs p.widget = e.runs p.widget := by
    have henabled := congrArg (fun own => (own.bind Prod.fst).getD true) h.own
    simpa [runs, Option.bind_map, Function.comp_def] using henabled
  have hown : d.ownSetting p.widget key = e.ownSetting p.widget key := by
    have hsettings := congrArg (fun own => own.bind (·.2.get? key)) h.own
    simpa [ownSetting, Option.bind_map, Function.comp_def] using hsettings
  have hinstance : (p.instanceId.bind fun id => (d.overrides p.widget id).bind (·.get? key)) =
      p.instanceId.bind fun id => (e.overrides p.widget id).bind (·.get? key) :=
    Option.bind_congr fun id hid => by rw [h.ofInstance id hid]
  have hmonitor : (p.monitor.bind fun m => (d.monitorLevel p.widget m).bind (·.get? key)) =
      p.monitor.bind fun m => (e.monitorLevel p.widget m).bind (·.get? key) :=
    Option.bind_congr fun m hm => by rw [h.onMonitor m hm]
  rw [Document.settingAt, Document.settingAt, hruns, hown, hinstance, hmonitor]

theorem Alike.effective (h : Alike p d e) : d.effective p = e.effective p := by
  have hconfig : (d.effective p).config = (e.effective p).config := by
    refine Map.ext_get? fun key => ?_
    rw [get?_effective, get?_effective, h.settingAt]
  exact congrArg (Effective.mk p) hconfig

-- ---------------------------------------------------------------------------
-- All instances
-- ---------------------------------------------------------------------------

theorem mem_instanceIds : id ∈ ((d.widgets.get? widget).map Widget.instanceIds).getD [] ↔
    (d.overrides widget id).isSome := by
  rw [overrides]
  cases hw : d.widgets.get? widget with
  | none => simp
  | some w =>
    cases hm : w.instances with
    | none => simp [Widget.instanceIds, Widget.instance?, hm]
    | some m => simp [Widget.instanceIds, Widget.instance?, hm, Map.mem_keys]

theorem sorted_instanceIds :
    (((d.widgets.get? widget).map Widget.instanceIds).getD []).Pairwise (· < ·) := by
  cases hw : d.widgets.get? widget with
  | none => exact .nil
  | some w =>
    cases hm : w.instances with
    | none => simp [Widget.instanceIds, hm]
    | some m =>
      have hids : w.instanceIds = m.entries.map (·.1) := by simp [Widget.instanceIds, hm, Map.keys]
      rw [Option.map_some, Option.getD_some, hids]
      exact List.pairwise_map.mpr m.sorted

/-- The configuration of a widget in one place has under each key what the cascade gives for it,
and depends on nothing that the document says about other widgets, instances and monitors. Of all
instances the configurations are listed in the order of their ids, after that of the widget. -/
theorem effective_cascade (d : Document) :
    (∀ p key, (d.effective p).config.get? key = d.settingAt p key) ∧
    (∀ p e, Alike p d e → d.effective p = e.effective p) ∧
    ∀ widget monitor, ∃ ids : List String, ids.Pairwise (· < ·) ∧
      (∀ id, id ∈ ids ↔ (d.overrides widget id).isSome) ∧
      d.effectiveAll widget monitor = d.effective ⟨widget, none, monitor⟩ ::
        ids.map fun id => d.effective ⟨widget, some id, monitor⟩ := by
  refine ⟨fun _ _ => get?_effective, fun _ _ => Alike.effective, fun widget monitor => ?_⟩
  refine ⟨_, sorted_instanceIds, fun _ => mem_instanceIds, ?_⟩
  simp [effectiveAll, Function.comp_def]

-- ---------------------------------------------------------------------------
-- An instance that asks for too much
-- ---------------------------------------------------------------------------

def toolbar (instances : Map Blob) : Widget where
  enabled := some false
  instances := some instances
  settings := Map.ofList [("height", Json.int 30), ("width", Json.int 5)]

/-- An instance that has no height and would have the toolbar run. -/
def leftToolbar : Blob := Map.ofList [("enabled", Json.bool true), ("height", Json.null)]

def monitorOf (width : Int) : Monitor where
  widgets := Map.ofList [("toolbar", Map.ofList [("width", Json.int width)])]

def oneToolbar : Document where
  widgets := Map.ofList [("toolbar", toolbar (Map.ofList [("left", leftToolbar)]))]
  monitors := Map.ofList [("M1", monitorOf 7)]

def amongOthers : Document where
  widgets := Map.ofList [("dock", {}),
    ("toolbar", toolbar (Map.ofList [("left", leftToolbar), ("right", ∅)]))]
  monitors := Map.ofList [("M1", monitorOf 7), ("M2", monitorOf 9)]

theorem effective_cascade_toolbar :
    let p : Placement := ⟨"toolbar", some "left", some "M1"⟩
    Alike p oneToolbar amongOthers ∧ oneToolbar.effective p = amongOthers.effective p ∧
      (oneToolbar.effective p).config.get? "width" = some (.int 7) ∧
      (oneToolbar.effective p).config.get? "height" = some .null ∧
      (oneToolbar.effective p).config.get? "enabled" = some (.bool false) := by
  intro p
  have alike : Alike p oneToolbar amongOthers :=
    ⟨rfl, fun id hid => by cases hid; rfl, fun m hm => by cases hm; rfl⟩
  obtain ⟨settings, others, -⟩ := effective_cascade oneToolbar
  exact ⟨alike, others p _ alike, settings p _, settings p _, settings p _⟩

-- ---------------------------------------------------------------------------
-- Reserved keys
-- ---------------------------------------------------------------------------

def instanceSetting (d : Document) (p : Placement) (key : String) : Option Json :=
  p.instanceId.bind fun id => (d.overrides p.widget id).bind (·.get? key)

def monitorSetting (d : Document) (p : Placement) (key : String) : Option Json :=
  p.monitor.bind fun m => (d.monitorLevel p.widget m).bind (·.get? key)

theorem get?_instancesKey_effective : (d.effective p).config.get? Widget.instancesKey =
    (d.monitorSetting p Widget.instancesKey).or (d.instanceSetting p Widget.instancesKey) := by
  rw [get?_effective, settingAt, if_neg (by decide), if_pos rfl, ← monitorSetting,
    ← instanceSetting]
  cases d.monitorSetting p Widget.instancesKey <;>
    cases d.instanceSetting p Widget.instancesKey <;> rfl

theorem get?_enabledKey_effective : (d.effective p).config.get? Widget.enabledKey =
    some ((d.monitorSetting p Widget.enabledKey).getD (.bool (d.runs p.widget))) := by
  rw [get?_effective, settingAt, if_pos rfl, ← monitorSetting]
  cases d.monitorSetting p Widget.enabledKey <;> rfl

theorem isEnabled_effective : (d.effective p).isEnabled =
    (((d.monitorSetting p Widget.enabledKey).getD (.bool (d.runs p.widget))).bool?).getD true := by
  have hget : (d.effective p).get? Widget.enabledKey =
      ((d.effective p).config.get? Widget.enabledKey).bind (Json.at? []) := rfl
  rw [Effective.isEnabled, hget, get?_enabledKey_effective]
  rfl

theorem getD_bool?_eq_false {v : Json} : v.bool?.getD true = false ↔ v = .bool false := by
  cases v <;> simp [Json.bool?]

/-- A configuration is without `instances` exactly if neither the instance nor the monitor overrides
that key. A widget does not run in a place exactly if the monitor says so, or says nothing and the
widget's own level has it off: anything else that the monitor has under `enabled`, true or not a
boolean at all, lets it run. -/
theorem effective_reserved_keys (d : Document) (p : Placement) :
    ((d.effective p).config.get? Widget.instancesKey = none ↔
      d.instanceSetting p Widget.instancesKey = none ∧
        d.monitorSetting p Widget.instancesKey = none) ∧
    ((d.effective p).isEnabled = false ↔
      d.monitorSetting p Widget.enabledKey = some (.bool false) ∨
        d.monitorSetting p Widget.enabledKey = none ∧ d.runs p.widget = false) := by
  constructor
  · rw [get?_instancesKey_effective, Option.or_eq_none_iff, and_comm]
  · rw [isEnabled_effective, getD_bool?_eq_false]
    cases d.monitorSetting p Widget.enabledKey with
    | none => simp
    | some v => simp

/-- A dock that does not run, with an instance and a monitor that override the reserved keys. -/
def overriddenDock : Json :=
  .obj [
    ("byWidget", .obj [("dock", .obj [
      ("enabled", .bool false),
      ("instances", .obj [("left", .obj [("instances", .obj [])])])])]),
    ("monitors", .obj [("M1", .obj [("byWidget", .obj [("dock", .obj [
      ("enabled", .str "yes")])])])])]

/-- The instance's `instances` is in its configuration, and the dock runs on a monitor that does not
say true. -/
theorem reserved_keys_leak : ∃ d, Document.ofJson? overriddenDock = .ok d ∧
    d.runs "dock" = false ∧
    (d.effective ⟨"dock", some "left", none⟩).config.get? Widget.instancesKey = some (.obj []) ∧
    d.monitorSetting ⟨"dock", none, some "M1"⟩ Widget.enabledKey = some (.str "yes") ∧
    (d.effective ⟨"dock", none, some "M1"⟩).isEnabled = true :=
  ⟨_, rfl, rfl, rfl, rfl, rfl⟩

end Document

end ShellSettings
