import ShellSettings.Proofs.Document.CascadeLaws
import ShellSettings.Proofs.Document.EditLaws
import ShellSettings.Proofs.Document.PathLaws

/-!
# Instances of a widget

A new instance is an entry without settings, of a widget that may itself be new. It
changes nothing but which instances there are (`Document.overrides_withInstance`), so
every configuration stays as it was (`Document.ConfiguresAs.effective`). Taking it out
again leaves the document as it was, but for the entry of a widget that had none
(`Document.Normalized.withoutInstance_withInstance`).
-/

namespace ShellSettings

namespace Map

variable {α : Type} {m : Map α} {key : String} {value : α}

theorem insert_self (h : m.get? key = some value) : m.insert key value = m := by
  refine ext_get? fun k => ?_
  rw [get?_insert]
  split
  · rename_i hk
    rw [hk, h]
  · rfl

theorem erase_insert (h : m.get? key = none) : (m.insert key value).erase key = m := by
  refine ext_get? fun k => ?_
  rw [get?_erase]
  split
  · rename_i hk
    rw [hk, h]
  · rename_i hk
    rw [get?_insert, if_neg hk]

theorem isEmpty_insert : (m.insert key value).isEmpty = false := by
  refine Bool.eq_false_iff.mpr fun hempty => ?_
  have hnone := isEmpty_iff.mp hempty key
  rw [get?_insert, if_pos rfl] at hnone
  cases hnone

end Map

-- ---------------------------------------------------------------------------
-- Containers of instances
-- ---------------------------------------------------------------------------

namespace Widget

variable {w : Widget} {instances : Option (Map Blob)} {id : String}

def addInstance (w : Widget) (id : String) : Widget :=
  { w with instances := some ((w.instances.getD ∅).insert id ∅) }

def dropInstance (w : Widget) (id : String) : Widget :=
  { w with instances := w.instances.map (·.erase id) }

@[simp] theorem instance?_default (i : String) : ({} : Widget).instance? i = none := rfl

@[simp] theorem instance?_addInstance (i : String) :
    (w.addInstance id).instance? i = if i = id then some ∅ else w.instance? i := by
  cases h : w.instances <;> simp [addInstance, instance?, h]

@[simp] theorem instance?_dropInstance (i : String) :
    (w.dropInstance id).instance? i = if i = id then none else w.instance? i := by
  cases h : w.instances <;> simp [dropInstance, instance?, h]

@[simp] theorem instance?_normalize (i : String) : w.normalize.instance? i = w.instance? i := by
  cases h : w.instances with
  | none => simp [normalize, instance?, h]
  | some m =>
    cases hm : m.isEmpty with
    | true => simp [normalize, instance?, h, hm, Option.filter, Map.isEmpty_iff.mp hm i]
    | false => simp [normalize, instance?, h, hm, Option.filter]

theorem normalize_addInstance : (w.addInstance id).normalize = w.addInstance id := by
  simp [normalize, addInstance, Option.filter, Map.isEmpty_insert]

/-- Taking a new instance out again leaves the container as it was; one that was added for it is
empty then, and dropped. -/
theorem normalize_dropInstance_addInstance (hw : w.normalize = w) (hid : w.instance? id = none) :
    ((w.addInstance id).dropInstance id).normalize = w := by
  -- What is left is the container with nothing in it where there was none.
  have hcontainer : ((w.instances.getD ∅).insert id ∅).erase id = w.instances.getD ∅ := by
    refine Map.erase_insert ?_
    cases hi : w.instances with
    | none => rfl
    | some m => simpa [instance?, hi] using hid
  have hdropped : ((w.addInstance id).dropInstance id).normalize =
      { w with instances := some (w.instances.getD ∅) }.normalize := by
    simp only [addInstance, dropInstance, Option.map_some, hcontainer]
  rw [hdropped]
  cases hi : w.instances with
  | none =>
    obtain ⟨enabled, instances, settings⟩ := w
    obtain rfl : instances = none := hi
    rfl
  | some m =>
    obtain ⟨enabled, instances, settings⟩ := w
    obtain rfl : instances = some m := hi
    exact hw

theorem isSome_instance?_of_same (h : w.toJson.same { w with instances }.toJson = true) :
    ({ w with instances }.instance? id).isSome = (w.instance? id).isSome := by
  obtain ⟨enabled, container, settings⟩ := w
  have hmembers := Json.sameMembers_iff.mp h
  -- If only one of them has a container, the other has a member less.
  have hlength := hmembers.length_eq
  cases container with
  | none =>
    cases instances with
    | none => rfl
    | some m => cases enabled <;> simp [members, Member.write, List.filterMap_cons] at hlength
  | some m =>
    cases instances with
    | none => cases enabled <;> simp [members, Member.write, List.filterMap_cons] at hlength
    | some n =>
      have hcontainers : (m.toJson Json.ofMap).same (n.toJson Json.ofMap) = true := by
        cases enabled <;>
          simp [members, Member.write, List.filterMap_cons, Json.SameMember] at hmembers <;>
          simp [hmembers]
      have hrel : Json.SameIfAny ((m.toJson Json.ofMap).get? id) ((n.toJson Json.ofMap).get? id) :=
        Json.rel_get? hcontainers
      rw [Map.get?_written, Map.get?_written] at hrel
      change (n.get? id).isSome = (m.get? id).isSome
      generalize m.get? id = a, n.get? id = b at hrel
      cases a <;> cases b <;> first | rfl | cases hrel

end Widget

-- ---------------------------------------------------------------------------
-- Documents with one instance more or less
-- ---------------------------------------------------------------------------

namespace Document

variable {d e : Document} {widget id : String} {w : Widget} {instances : Option (Map Blob)}
  {p : Placement}

def withInstance (d : Document) (widget id : String) : Document :=
  { d with widgets := d.widgets.change widget {} (·.addInstance id) }

def withoutInstance (d : Document) (widget id : String) : Document :=
  match d.widgets.get? widget with
  | none => d
  | some w => { d with widgets := d.widgets.insert widget (w.dropInstance id) }

def withEntry (d : Document) (widget : String) : Document :=
  { d with widgets := d.widgets.insert widget ((d.widgets.get? widget).getD {}) }

theorem withEntry_eq_self : d.withEntry widget = d ↔ (d.widgets.get? widget).isSome = true := by
  constructor
  · intro h
    have hentry := congrArg (fun d : Document => (d.widgets.get? widget).isSome) h
    rw [← hentry]
    simp [withEntry]
  · intro h
    obtain ⟨w, hw⟩ := Option.isSome_iff_exists.mp h
    have hsame : d.widgets.insert widget ((d.widgets.get? widget).getD {}) = d.widgets := by
      rw [hw]
      exact Map.insert_self hw
    rw [withEntry, hsame]

theorem get?_withInstance : (d.withInstance widget id).widgets.get? widget =
    some (((d.widgets.get? widget).getD {}).addInstance id) := by
  simp [withInstance, Map.change]

theorem withoutInstance_eq (hw : d.widgets.get? widget = some w) :
    d.withoutInstance widget id =
      { d with widgets := d.widgets.insert widget (w.dropInstance id) } := by
  simp [withoutInstance, hw]

theorem overrides_withInstance (other i : String) : (d.withInstance widget id).overrides other i =
    if other = widget ∧ i = id then some ∅ else d.overrides other i := by
  by_cases hother : other = widget
  · subst hother
    cases h : d.widgets.get? other with
    | none => simp [overrides, withInstance, Map.change, h]
    | some w => simp [overrides, withInstance, Map.change, h]
  · simp [overrides, withInstance, Map.change, hother]

theorem overrides_withoutInstance (other i : String) :
    (d.withoutInstance widget id).overrides other i =
      if other = widget ∧ i = id then none else d.overrides other i := by
  cases h : d.widgets.get? widget with
  | none =>
    by_cases hother : other = widget
    · subst hother
      simp [overrides, withoutInstance, h]
    · simp [withoutInstance, h, hother]
  | some w =>
    by_cases hother : other = widget
    · subst hother
      simp [overrides, withoutInstance, h]
    · simp [overrides, withoutInstance, h, hother]

theorem overrides_normalize (other i : String) :
    d.normalize.overrides other i = d.overrides other i := by
  cases h : d.widgets.get? other <;> simp [overrides, normalize, h]

-- ---------------------------------------------------------------------------
-- Configurations
-- ---------------------------------------------------------------------------

/-- Two documents configure all widgets alike: an instance without settings counts as none. -/
structure ConfiguresAs (d e : Document) : Prop where
  monitors : d.monitors = e.monitors
  runs : ∀ widget, d.runs widget = e.runs widget
  own : ∀ widget key, d.ownSetting widget key = e.ownSetting widget key
  instances : ∀ widget id key, (d.overrides widget id).bind (·.get? key) =
    (e.overrides widget id).bind (·.get? key)

theorem ConfiguresAs.effective (h : d.ConfiguresAs e) (p : Placement) :
    d.effective p = e.effective p := by
  have hconfig : (d.effective p).config = (e.effective p).config := by
    refine Map.ext_get? fun key => ?_
    have hmonitor : d.monitorLevel p.widget = e.monitorLevel p.widget := by
      funext m
      rw [monitorLevel, monitorLevel, h.monitors]
    rw [get?_effective, get?_effective, settingAt, settingAt, hmonitor, h.runs, h.own]
    simp only [h.instances]
  exact congrArg (Effective.mk p) hconfig

theorem configuresAs_withInstance (hid : d.overrides widget id = none) :
    (d.withInstance widget id).ConfiguresAs d where
  monitors := rfl
  runs other := by
    by_cases hother : other = widget
    · subst hother
      cases h : d.widgets.get? other <;>
        simp [runs, withInstance, Map.change, h, Widget.addInstance]
    · simp [runs, withInstance, Map.change, hother]
  own other key := by
    by_cases hother : other = widget
    · subst hother
      cases h : d.widgets.get? other <;>
        simp [ownSetting, withInstance, Map.change, h, Widget.addInstance]
    · simp [ownSetting, withInstance, Map.change, hother]
  instances other i key := by
    rw [overrides_withInstance]
    split
    · rename_i h
      obtain ⟨rfl, rfl⟩ := h
      rw [hid]
      rfl
    · rfl

theorem configuresAs_withEntry (d : Document) (widget : String) :
    (d.withEntry widget).ConfiguresAs d := by
  cases hw : d.widgets.get? widget with
  | some w =>
    rw [withEntry_eq_self.mpr (by rw [hw]; rfl)]
    exact ⟨rfl, fun _ => rfl, fun _ _ => rfl, fun _ _ _ => rfl⟩
  | none =>
    constructor
    case monitors => rfl
    all_goals
      intro other
      by_cases hother : other = widget
      · subst hother
        simp [runs, ownSetting, overrides, withEntry, hw]
      · simp [runs, ownSetting, overrides, withEntry, hother]

theorem config_effective_of_empty {monitor : Option String}
    (h : ∀ key, (d.overrides widget id).bind (·.get? key) = none) :
    (d.effective ⟨widget, some id, monitor⟩).config =
      (d.effective ⟨widget, none, monitor⟩).config := by
  refine Map.ext_get? fun key => ?_
  rw [get?_effective, get?_effective, settingAt, settingAt]
  simp [h]

-- ---------------------------------------------------------------------------
-- Going back
-- ---------------------------------------------------------------------------

theorem Normalized.get? (hd : d.Normalized) (hw : d.widgets.get? widget = some w) :
    w.normalize = w := by
  have hmap := congrArg (·.get? widget) (normalized_iff.mp hd)
  simpa [hw] using hmap

theorem Normalized.withInstance (hd : d.Normalized) : (d.withInstance widget id).Normalized := by
  refine normalized_iff.mpr (Map.ext_get? fun other => ?_)
  by_cases hother : other = widget
  · simp [Document.withInstance, Map.change, hother, Widget.normalize_addInstance]
  · have hothers := congrArg (·.get? other) (normalized_iff.mp hd)
    simpa [Document.withInstance, Map.change, hother] using hothers

/-- Without the new instance the document is as before, but for the entry that its widget has
now. -/
theorem Normalized.withoutInstance_withInstance (hd : d.Normalized)
    (hid : d.overrides widget id = none) :
    ((d.withInstance widget id).withoutInstance widget id).normalize = d.withEntry widget := by
  have hwidget : (((((d.widgets.get? widget).getD {}).addInstance id).dropInstance id)).normalize =
      (d.widgets.get? widget).getD {} := by
    cases h : d.widgets.get? widget with
    | none => exact Widget.normalize_dropInstance_addInstance rfl rfl
    | some w =>
      have hnone : w.instance? id = none := by simpa [overrides, h] using hid
      exact Widget.normalize_dropInstance_addInstance (hd.get? h) hnone
  rw [withoutInstance_eq get?_withInstance]
  refine congrArg (fun ws => { d with widgets := ws }) (Map.ext_get? fun other => ?_)
  by_cases hother : other = widget
  · simp [hother, hwidget]
  · have hothers := congrArg (·.get? other) (normalized_iff.mp hd)
    simpa [Document.withInstance, Map.change, hother] using hothers

-- ---------------------------------------------------------------------------
-- Documents that differ in their instances
-- ---------------------------------------------------------------------------

theorem rel_widgets_of_same (h : d.same e = true) (widget : String) :
    Option.Rel (fun w w' : Widget => w.toJson.same w'.toJson = true) (d.widgets.get? widget)
      (e.widgets.get? widget) := by
  have hwidgets :
      (d.widgets.toJson Widget.toJson).same (e.widgets.toJson Widget.toJson) = true := by
    have hrel : Json.SameIfAny (d.toJson.get? "byWidget") (e.toJson.get? "byWidget") :=
      Json.rel_get? h
    cases hrel with
    | some h => exact h
  have hrel : Json.SameIfAny ((d.widgets.toJson Widget.toJson).get? widget)
    ((e.widgets.toJson Widget.toJson).get? widget) := Json.rel_get? hwidgets
  rw [Map.get?_written, Map.get?_written] at hrel
  generalize d.widgets.get? widget = a, e.widgets.get? widget = b at hrel
  cases a <;> cases b <;> cases hrel
  · exact .none
  · exact .some (by assumption)

theorem isSome_overrides_of_same (h : d.same e = true) (hd : d.widgets.get? widget = some w)
    (he : e.widgets.get? widget = some { w with instances }) (id : String) :
    (e.overrides widget id).isSome = (d.overrides widget id).isSome := by
  have hrel := rel_widgets_of_same h widget
  rw [hd, he] at hrel
  cases hrel with
  | some hsame => simpa [overrides, hd, he] using Widget.isSome_instance?_of_same hsame

theorem same_withInstance (hid : d.overrides widget id = none) :
    d.same (d.withInstance widget id).normalize = false := by
  refine Bool.eq_false_iff.mpr fun hsame => ?_
  have hget : (d.withInstance widget id).normalize.widgets.get? widget =
      some (((d.widgets.get? widget).getD {}).addInstance id) := by
    simp [normalize, get?_withInstance, Widget.normalize_addInstance]
  cases hw : d.widgets.get? widget with
  | none =>
    have hrel := rel_widgets_of_same hsame widget
    rw [hw, hget] at hrel
    cases hrel
  | some w =>
    rw [hw] at hget
    have hisSome := isSome_overrides_of_same hsame hw hget id
    simp [overrides_normalize, overrides_withInstance, hid] at hisSome

theorem same_withoutInstance (hid : (d.overrides widget id).isSome = true) :
    d.same (d.withoutInstance widget id).normalize = false := by
  refine Bool.eq_false_iff.mpr fun hsame => ?_
  obtain ⟨overridden, hoverridden⟩ := Option.isSome_iff_exists.mp hid
  obtain ⟨w, hw, -⟩ := Option.bind_eq_some_iff.mp hoverridden
  have hget : (d.withoutInstance widget id).normalize.widgets.get? widget =
      some (w.dropInstance id).normalize := by
    simp [normalize, withoutInstance_eq hw]
  have hisSome := isSome_overrides_of_same hsame hw hget id
  simp [overrides_normalize, overrides_withoutInstance, hid] at hisSome

end Document

end ShellSettings
