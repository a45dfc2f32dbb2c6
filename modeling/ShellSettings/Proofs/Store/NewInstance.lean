import ShellSettings.Proofs.Store.Creation

/-!
# A new instance shows nothing

An instance that was just created has no settings of its own. Until it is edited every
configuration is what it was, and the instance is configured like its widget. Deleting
it leaves nothing behind but the entry of a widget that had none
(`Store.created_invisible`).
-/

namespace ShellSettings.Store

variable {s t : Store} {l : Loaded} {d : Document} {widget id : String}

theorem effective_of_loaded (hl : s.loaded = some l) (p : Placement) :
    s.effective p = .ok (l.current.effective p) := by
  rw [effective, get_of_loaded hl]
  rfl

theorem deleteInstance_eq_ok (hl : s.loaded = some l)
    (hid : (l.current.overrides widget id).isSome = true)
    (hdangling : l.current.dangling s.catalog = []) :
    s.deleteInstance widget id = .ok { s with
      loaded := some { l with
        current := (l.current.withoutInstance widget id).normalize
        revision := l.revision + 1 } } := by
  cases hw : l.current.widgets.get? widget with
  | none => simp [Document.overrides, hw] at hid
  | some w =>
    have hinstance : w.hasInstance id = true := by
      simpa [Document.overrides, hw, Widget.hasInstance] using hid
    have hcommit : s.deleteInstance widget id =
        s.commit "delete_instance" (l.current.withoutInstance widget id) := by
      simp only [deleteInstance, get_of_loaded hl, ok_bind, hw, hinstance, if_true,
        Document.withoutInstance_eq hw]
      rfl
    have hkept : (l.current.withoutInstance widget id).normalize.dangling s.catalog = [] := by
      rw [Document.withoutInstance_eq hw]
      exact hdangling
    rw [hcommit]
    refine commit_eq_ok.mpr ⟨hkept, l, hl, ?_⟩
    rw [Loaded.committed, if_neg (by simp [Document.same_withoutInstance hid])]

/-- In a store whose document has no empty container: once an instance is created, everything is
configured as before, the instance as its widget on every monitor. It can be deleted then, which
again leaves all configurations as they were, and the document as well exactly if its widget had an
entry before. -/
theorem created_invisible (hl : s.loaded = some l) (hd : l.current.Normalized)
    (h : s.createInstance widget = (.ok id, t)) :
    (∀ p, t.effective p = s.effective p) ∧
    (∀ monitor, ∃ root own, t.effective ⟨widget, none, monitor⟩ = .ok root ∧
      t.effective ⟨widget, some id, monitor⟩ = .ok own ∧ own.config = root.config) ∧
    ∃ u, t.deleteInstance widget id = .ok u ∧ (∀ p, u.effective p = s.effective p) ∧
      (u.get = s.get ↔ (l.current.widgets.get? widget).isSome = true) := by
  obtain ⟨hid, hdangling, n, rfl⟩ := createInstance_eq_ok hl h
  -- There is no empty container that the commit could have dropped.
  have hcreated : (l.current.withInstance widget id).normalize = l.current.withInstance widget id :=
    hd.withInstance
  rw [hcreated]
  have hconfigured := Document.configuresAs_withInstance hid
  have hempty : (l.current.withInstance widget id).overrides widget id = some ∅ := by
    simp [Document.overrides_withInstance]
  refine ⟨fun p => ?_, fun monitor => ⟨_, _, rfl, rfl, ?_⟩, _,
    deleteInstance_eq_ok rfl (by rw [hempty]; rfl) hdangling, fun p => ?_, ?_⟩
  · rw [effective_of_loaded hl, effective_of_loaded rfl, hconfigured.effective]
  · refine Document.config_effective_of_empty fun key => ?_
    rw [hempty]
    rfl
  · rw [effective_of_loaded hl, effective_of_loaded rfl, hd.withoutInstance_withInstance hid,
      (Document.configuresAs_withEntry l.current widget).effective]
  · rw [get_of_loaded hl, get_of_loaded rfl, hd.withoutInstance_withInstance hid, Except.ok.injEq,
      Document.withEntry_eq_self]

/-- The dock has an entry, which is back once its instance is deleted; the clock has none and keeps
the one it is given. -/
theorem created_invisible_dock_and_clock :
    let d : Document := {
      widgets := Map.ofList [("dock", { settings := Map.ofList [("hidden", .bool true)] })] }
    let s := (Store.install { ids := ⟨fun _ => "a", 0⟩ } d).1
    (∃ t u, s.createInstance "dock" = (.ok "a", t) ∧
      t.effective ⟨"dock", some "a", none⟩ = s.effective ⟨"dock", some "a", none⟩ ∧
      t.deleteInstance "dock" "a" = .ok u ∧ u.get = s.get) ∧
    ∃ t u, s.createInstance "clock" = (.ok "a", t) ∧ t.deleteInstance "clock" "a" = .ok u ∧
      u.get ≠ s.get := by
  intro d s
  constructor
  · have hcreate : s.createInstance "dock" = (.ok "a", (s.createInstance "dock").2) := rfl
    obtain ⟨hsame, -, u, hdelete, -, hback⟩ := created_invisible (s := s) rfl rfl hcreate
    exact ⟨_, u, hcreate, hsame _, hdelete, hback.mpr rfl⟩
  · have hcreate : s.createInstance "clock" = (.ok "a", (s.createInstance "clock").2) := rfl
    obtain ⟨-, -, u, hdelete, -, hback⟩ := created_invisible (s := s) rfl rfl hcreate
    exact ⟨_, u, hcreate, hdelete, fun h => nomatch hback.mp h⟩

end ShellSettings.Store
