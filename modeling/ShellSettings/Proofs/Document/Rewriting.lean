import ShellSettings.Proofs.Document.Parts
import ShellSettings.Proofs.Document.PathLaws

/-!
# Writing a document again

What is written at a path depends on what stood there and on nothing else
(`Part.rewrite_along`), and what a part may hold is known without reading it: a leaf,
an object, or any value as it is (`Part.form_of_rewrite`). Two things follow for a value
that has an object in it replaced. Beside the members that are new, all leaves are
written as before and none appears (`Part.rewrite_agree`). And if the new members are
written as what stood under their keys, nothing changes at all
(`Part.rewrite_patched`).
-/

namespace ShellSettings.Part

variable {P : Part} {f : Finish} {v w x y : Json} {r : Option Json} {key : String}
  {keys q : List String}

-- ---------------------------------------------------------------------------
-- Key by key
-- ---------------------------------------------------------------------------

theorem rewrites_of_leaf (hchild : ∀ key, P.child key = .dropped) (hfields : P.fields = [])
    (hr : ∀ key, r.bind (·.get? key) = none) : P.Rewrites f v r where
  there _ := by rw [hchild, hr]; rfl
  missing _ _ := hr _
  field hkey := by simp [hfields] at hkey

theorem get?_of_leaf {l : Leaf} (h : l.rewrite v = .ok r) (key : String) :
    r.bind (·.get? key) = none := by
  cases l
  all_goals
    obtain ⟨a, -, rfl⟩ := map_eq_ok h
    first | rfl | (cases a <;> rfl)

theorem optional_eq_ok {α : Type} {read : Json → Read α} {o : Option α}
    (h : Read.optional read v = .ok o) :
    v = .null ∧ o = none ∨ v ≠ .null ∧ ∃ a, read v = .ok a ∧ o = some a := by
  unfold Read.optional at h
  split at h
  · rename_i hview
    cases h
    cases v <;> cases hview
    exact .inl ⟨rfl, rfl⟩
  · rename_i hview
    obtain ⟨a, ha, rfl⟩ := map_eq_ok h
    refine .inr ⟨?_, a, ha, rfl⟩
    rintro rfl
    exact hview rfl

theorem Rewrites.of_get? {r' : Option Json} (h : P.Rewrites f v r)
    (hget : ∀ key, r'.bind (·.get? key) = r.bind (·.get? key)) : P.Rewrites f v r' where
  there hx := by rw [hget, h.there hx]
  missing hx hkey := (hget _).trans (h.missing hx hkey)
  field hkey := by rw [hget, h.field hkey]

theorem rewrites_instances {m : Option (Map Blob)}
    (h : Read.optional (Read.map Read.blob) v = .ok m) :
    instances.Rewrites f v ((f.instances m).map fun m => (m.toJson .ofMap).sorted) := by
  rcases optional_eq_ok h with ⟨rfl, rfl⟩ | ⟨-, m, hm, rfl⟩
  · have hnone : f.instances none = none := by simp [Finish.instances]
    rw [hnone]
    refine ⟨fun hx => ?_, fun _ _ => rfl, fun hkey => absurd hkey List.not_mem_nil⟩
    cases hx
  · have hrewrites : instances.Rewrites f v (some (m.toJson .ofMap).sorted) :=
      rewrites_map (fun _ => rfl) rfl (fun _ => rfl) hm
    rw [Finish.instances_some]
    split
    · rename_i hdrop
      rw [Bool.and_eq_true, Map.isEmpty_iff] at hdrop
      refine hrewrites.of_get? fun key => ?_
      rw [Option.bind_some, Map.get?_toJson, hdrop.2]
      rfl
    · exact hrewrites

/-- What is written under a key depends on what stood there and on nothing else. -/
theorem rewrites (h : P.rewrite f v = .ok r) : P.Rewrites f v r := by
  cases P with
  | document =>
    obtain ⟨d, hd, rfl⟩ := map_eq_ok h
    rw [Document.toValue_finish]
    exact Document.ofRecord.rewrites (Document.holds hd) (by simp [Document.record])
  | updater =>
    obtain ⟨u, hu, rfl⟩ := map_eq_ok h
    rw [Updater.sorted_toJson]
    exact Updater.ofRecord.rewrites (Updater.holds hu) (by simp [Updater.record])
  | widget =>
    obtain ⟨w, hw, rfl⟩ := map_eq_ok h
    rw [Widget.sorted_finish]
    exact Widget.ofRecord.rewrites (Widget.holds hw)
      (by simp [Widget.record, Widget.enabledKey, Widget.instancesKey])
  | monitor =>
    obtain ⟨m, hm, rfl⟩ := map_eq_ok h
    rw [Monitor.sorted_finish]
    exact Monitor.ofRecord.rewrites (Monitor.holds hm) (by simp [Monitor.record])
  | workspace =>
    obtain ⟨w, hw, rfl⟩ := map_eq_ok h
    rw [Workspace.sorted_finish]
    exact Workspace.ofRecord.rewrites (Workspace.holds hw) (by simp [Workspace.record])
  | widgets | monitors | workspaces | overrides =>
    obtain ⟨m, hm, rfl⟩ := map_eq_ok h
    exact rewrites_map (fun _ => rfl) rfl (fun _ => rfl) hm
  | blob =>
    obtain ⟨b, hb, rfl⟩ := map_eq_ok h
    rw [← Map.toJson_id]
    refine rewrites_map (fun _ => rfl) rfl (fun x => ?_) hb
    exact congrArg (fun y => Except.ok (some y)) (Json.sorted_sorted x).symm
  | instances =>
    obtain ⟨m, hm, rfl⟩ := map_eq_ok h
    exact rewrites_instances hm
  | slot =>
    obtain ⟨id, -, rfl⟩ := map_eq_ok h
    exact rewrites_of_leaf (fun _ => rfl) rfl fun _ => by cases f.slot id <;> rfl
  | leaf l => exact rewrites_of_leaf (fun _ => rfl) rfl (get?_of_leaf h)
  | dropped =>
    cases h
    exact rewrites_of_leaf (fun _ => rfl) rfl fun _ => rfl
  | free =>
    cases h
    refine ⟨fun hx => ?_, fun hx _ => ?_, fun hkey => absurd hkey List.not_mem_nil⟩
    · rw [Option.bind_some, Json.get?_sorted, hx]
      rfl
    · rw [Option.bind_some, Json.get?_sorted, hx]
      rfl

theorem rewrite_along (h : P.rewrite f v = .ok r) (hx : v.lastAt? q = some x) :
    (P.along q).rewrite f x = .ok (r.bind (·.at? q)) := by
  induction q generalizing P v r with
  | nil =>
    cases hx
    simpa [along, Json.at?] using h
  | cons key q ih =>
    obtain ⟨z, hz, hx⟩ := Option.bind_eq_some_iff.mp hx
    rw [along, ih ((rewrites h).there hz) hx, Option.bind_assoc]
    rfl

-- ---------------------------------------------------------------------------
-- Leaves
-- ---------------------------------------------------------------------------

def writesLeaf : Part → Json → Bool
  | .slot, _ | .leaf _, _ => true
  | .free, v => v.isLeaf
  | _, _ => false

theorem form_of_rewrite (h : P.rewrite f v = .ok (some y)) :
    y.IsSorted ∧ y.isLeaf = P.writesLeaf v := by
  cases P with
  | document | updater | widgets | widget | monitors | monitor | workspaces | workspace
  | overrides | blob =>
    obtain ⟨a, -, hy⟩ := map_eq_ok h
    cases hy
    exact ⟨Json.sorted_sorted _, rfl⟩
  | instances =>
    obtain ⟨m, -, hy⟩ := map_eq_ok h
    obtain ⟨m', -, rfl⟩ := Option.map_eq_some_iff.mp hy
    exact ⟨Json.sorted_sorted _, rfl⟩
  | slot =>
    obtain ⟨id, -, hy⟩ := map_eq_ok h
    cases hy
    exact ⟨Json.sorted_ofOption _, by cases f.slot id <;> rfl⟩
  | leaf l =>
    cases l with
    | optionalFlag =>
      obtain ⟨b, -, hy⟩ := map_eq_ok h
      obtain ⟨b', -, rfl⟩ := Option.map_eq_some_iff.mp hy
      exact ⟨rfl, rfl⟩
    | texts =>
      obtain ⟨ids, -, hy⟩ := map_eq_ok h
      cases hy
      exact ⟨Json.sorted_ofStrings ids, rfl⟩
    | collections =>
      obtain ⟨cs, -, hy⟩ := map_eq_ok h
      cases hy
      exact ⟨Json.sorted_sorted _, rfl⟩
    | text | flag | performance | desktops | channel =>
      obtain ⟨a, -, hy⟩ := map_eq_ok h
      cases hy
      exact ⟨rfl, rfl⟩
  | free =>
    cases h
    exact ⟨Json.sorted_sorted v, Json.isLeaf_sorted⟩
  | dropped => cases h

theorem isSorted_of_rewrite (h : P.rewrite f v = .ok (some y)) : y.IsSorted :=
  (form_of_rewrite h).1

theorem isLeaf_of_rewrite (h : P.rewrite f v = .ok (some y)) : y.isLeaf = P.writesLeaf v :=
  (form_of_rewrite h).2

theorem writesLeaf_eq (h : v.isLeaf = w.isLeaf) : P.writesLeaf v = P.writesLeaf w := by
  cases P <;> simp [writesLeaf, h]

/-- What becomes of a leaf: slots that name a collection that is gone are cleared. -/
def finishLeaf (f : Finish) : Part → Json → Json
  | .slot, .str id => if f.gone id then .null else .str id
  | _, v => v

/-- The value is a slot that is cleared. -/
def IsGone (P : Part) (f : Finish) (v : Json) : Prop :=
  P = .slot ∧ ∃ id, v = .str id ∧ f.gone id = true

theorem finishLeaf_of_isGone (h : P.IsGone f v) : P.finishLeaf f v = .null := by
  obtain ⟨rfl, id, rfl, hgone⟩ := h
  simp [finishLeaf, hgone]

theorem finishLeaf_of_not_isGone (h : ¬ P.IsGone f v) : P.finishLeaf f v = v := by
  unfold finishLeaf
  split
  · rename_i id
    exact if_neg fun hgone => h ⟨rfl, id, rfl, hgone⟩
  · rfl

theorem finishLeaf_ofOption {id : Option String} :
    slot.finishLeaf f (.ofOption id) = .ofOption (f.slot id) := by
  cases id with
  | none => rfl
  | some id =>
    cases hgone : f.gone id <;>
      simp [finishLeaf, Finish.slot, Option.filter, Json.ofOption, hgone]

theorem rewrite_leaf (hplain : P.rewrite .plain v = .ok (some v)) (hleaf : v.isLeaf = true)
    (h : P.rewrite f v = .ok r) : r = some (P.finishLeaf f v) := by
  have hwrites : P.writesLeaf v = true := (isLeaf_of_rewrite hplain).symm.trans hleaf
  cases P with
  | slot =>
    obtain ⟨id, hid, rfl⟩ := map_eq_ok h
    obtain ⟨id', hid', hv⟩ := map_eq_ok hplain
    obtain rfl : id = id' := Except.ok.inj (hid.symm.trans hid')
    obtain rfl : Json.ofOption id = v := by simpa [Finish.slot_plain] using hv
    rw [finishLeaf_ofOption]
  | leaf | free => exact Except.ok.inj (h.symm.trans hplain)
  | document | updater | widgets | widget | instances | monitors | monitor | workspaces
  | workspace | overrides | blob | dropped => cases hwrites

-- ---------------------------------------------------------------------------
-- Parts of any form
-- ---------------------------------------------------------------------------

/-- The parts that keep what they are given: members that are unknown, among them the settings of a
widget, an instance, what a monitor overrides, and the shortcuts. -/
def isFreeForm : Part → Bool
  | .free | .blob | .overrides => true
  | _ => false

theorem rewrite_object (hfields : P.fields = [])
    (hchild : ∀ {key x r}, (P.child key).rewrite f x = .ok r → r = some x.sorted)
    (hyleaf : y.isLeaf = false) (hvleaf : v.isLeaf = false) (h : P.rewrite f v = .ok (some y)) :
    y = v.sorted := by
  refine (isSorted_of_rewrite h).ext (Json.sorted_sorted v) hyleaf
    (Json.isLeaf_sorted.trans hvleaf) fun key => ?_
  rw [Json.get?_sorted]
  cases hx : v.last? key with
  | none => exact (rewrites h).missing hx (by simp [hfields])
  | some x => exact hchild ((rewrites h).there hx)

theorem rewrite_freeForm (hP : P.isFreeForm = true) (h : P.rewrite f v = .ok r) :
    r = some v.sorted := by
  have hfree : ∀ {x : Json} {r}, free.rewrite f x = .ok r → r = some x.sorted := fun h =>
    (Except.ok.inj h).symm
  have hblob : ∀ {x : Json} {r}, blob.rewrite f x = .ok r → r = some x.sorted := by
    intro x r h
    obtain ⟨b, hb, rfl⟩ := map_eq_ok h
    cases x with
    | obj members => exact congrArg some (rewrite_object rfl hfree rfl rfl h)
    | null | bool | num | str | arr => cases hb
  cases P with
  | free => exact hfree h
  | blob => exact hblob h
  | overrides =>
    obtain ⟨m, hm, rfl⟩ := map_eq_ok h
    cases v with
    | obj members => exact congrArg some (rewrite_object rfl hblob rfl rfl h)
    | null | bool | num | str | arr => cases hm
  | document | updater | widgets | widget | instances | monitors | monitor | workspaces
  | workspace | slot | leaf | dropped => cases hP

-- ---------------------------------------------------------------------------
-- Beside what was replaced
-- ---------------------------------------------------------------------------

/-- Where a value agrees with one that is written back as it is, it is written as that one: leaves
stay, but for the slots that are cleared, and none appears. -/
theorem rewrite_agree (hagree : Json.Agree q v w) (hv : v.IsSorted)
    (hplain : P.rewrite .plain v = .ok (some v)) (h : P.rewrite f w = .ok r) :
    (∀ x, v.at? q = some x → x.isLeaf = true →
      r.bind (·.at? q) = some ((P.along q).finishLeaf f x)) ∧
    ∀ y, r.bind (·.at? q) = some y → y.isLeaf = true → ∃ x, v.at? q = some x ∧ x.isLeaf = true := by
  induction q generalizing P v w r with
  | nil =>
    have hsame : v.isLeaf = w.isLeaf := by
      rcases hagree with rfl | ⟨hv, hw⟩
      · rfl
      · rw [hv, hw]
    have hend : r.bind (·.at? []) = r := by cases r <;> rfl
    rw [hend]
    refine ⟨fun x hx hleaf => ?_, fun y hy hleaf => ⟨v, rfl, ?_⟩⟩
    · cases hx
      rcases hagree with rfl | ⟨hv, -⟩
      · exact rewrite_leaf hplain hleaf h
      · rw [hv] at hleaf
        cases hleaf
    · subst hy
      rw [isLeaf_of_rewrite hplain, writesLeaf_eq hsame, ← isLeaf_of_rewrite h, hleaf]
  | cons key q ih =>
    unfold Json.Agree at hagree
    rw [hv.last?_eq] at hagree
    have hbind : ∀ o : Option Json, o.bind (·.at? (key :: q)) =
        (o.bind (·.get? key)).bind (·.at? q) := fun o => (Option.bind_assoc ..).symm
    have hat : v.at? (key :: q) = (v.get? key).bind (·.at? q) := rfl
    rw [hbind, hat]
    have hfrom := rewrites hplain
    have hto := rewrites h
    cases hx : v.get? key with
    | none =>
      cases hy : w.last? key with
      | some y => simp [hx, hy] at hagree
      | none =>
        -- What is written back as it is has all its fields, so no field is missing here.
        have hkey : key ∉ P.fields := fun hkey => by simpa [hx] using hfrom.field hkey
        rw [hto.missing hy hkey]
        simp
    | some x =>
      cases hy : w.last? key with
      | none => simp [hx, hy] at hagree
      | some y =>
        rw [hx, hy] at hagree
        cases hagree with
        | some hagree =>
          have hthere := hfrom.there (hv.last?_eq.trans hx)
          rw [Option.bind_some, hx] at hthere
          exact ih hagree (hv.get? hx) hthere (hto.there hy)

-- ---------------------------------------------------------------------------
-- Again
-- ---------------------------------------------------------------------------

theorem isSome_of_rewrite (hv : P.rewrite f v = .ok (some y)) (hyleaf : y.isLeaf = false)
    (hwleaf : w.isLeaf = false) (h : P.rewrite f w = .ok r)
    (hget : ∀ key, r.bind (·.get? key) = y.get? key) : r.isSome := by
  cases P with
  | document | updater | widgets | widget | monitors | monitor | workspaces | workspace
  | overrides | blob | slot =>
    obtain ⟨a, -, rfl⟩ := map_eq_ok h
    rfl
  | free =>
    cases h
    rfl
  | dropped => cases hv
  | leaf =>
    rw [isLeaf_of_rewrite hv] at hyleaf
    cases hyleaf
  | instances =>
    obtain ⟨m, hm, rfl⟩ := map_eq_ok h
    rcases optional_eq_ok hm with ⟨rfl, -⟩ | ⟨-, m, -, rfl⟩
    · cases hwleaf
    rw [Finish.instances_some] at hget ⊢
    split
    · rename_i hdrop
      obtain ⟨o, -, hy⟩ := map_eq_ok hv
      obtain ⟨m', hm', rfl⟩ := Option.map_eq_some_iff.mp hy
      have hempty : m'.isEmpty = true := by
        refine Map.isEmpty_iff.mpr fun key => ?_
        have hnone := hget key
        rw [if_pos hdrop, Map.get?_toJson] at hnone
        exact Option.map_eq_none_iff.mp hnone.symm
      rw [Bool.and_eq_true] at hdrop
      rw [f.isEmpty_of_instances hm' hdrop.1] at hempty
      cases hempty
    · rfl

/-- If what is written back as it is has an object replaced so that nothing else is written under
any key, then it is written as before. -/
theorem rewrite_eq (hv : P.rewrite f v = .ok (some v)) (hvleaf : v.isLeaf = false)
    (hwleaf : w.isLeaf = false) (h : P.rewrite f w = .ok r)
    (hthere : ∀ {key x}, w.last? key = some x → (P.child key).rewrite f x = .ok (v.get? key))
    (hmissing : ∀ {key}, w.last? key = none → v.get? key = none) : r = some v := by
  have hget : ∀ key, r.bind (·.get? key) = v.get? key := by
    intro key
    cases hx : w.last? key with
    | some x => exact Except.ok.inj (((rewrites h).there hx).symm.trans (hthere hx))
    | none =>
      have hkey : key ∉ P.fields := fun hkey => by
        simpa [hmissing hx] using (rewrites hv).field hkey
      rw [(rewrites h).missing hx hkey, hmissing hx]
  obtain ⟨y, rfl⟩ := Option.isSome_iff_exists.mp (isSome_of_rewrite hv hvleaf hwleaf h hget)
  have hyleaf : y.isLeaf = false := by
    rw [isLeaf_of_rewrite h, writesLeaf_eq (hwleaf.trans hvleaf.symm), ← isLeaf_of_rewrite hv,
      hvleaf]
  exact congrArg some
    ((isSorted_of_rewrite h).ext (isSorted_of_rewrite hv) hyleaf hvleaf hget)

theorem rewrite_patched {old : List (String × Json)} {patch : Blob}
    (hv : P.rewrite f v = .ok (some v)) (hat : v.at? keys = some (.obj old))
    (hw : Json.replace? (.ofMap (Blob.merge (Map.ofList old) patch)) keys v = some w)
    (h : P.rewrite f w = .ok r)
    (hgiven : ∀ {key x}, patch.get? key = some x →
      (P.along (keys ++ [key])).rewrite f x = .ok (v.at? (keys ++ [key]))) : r = some v := by
  have hsorted : v.IsSorted := isSorted_of_rewrite hv
  have hown : ∀ {key x}, v.last? key = some x → (P.child key).rewrite f x = .ok (v.get? key) :=
    (rewrites hv).there
  induction keys generalizing P v w r with
  | nil =>
    cases hat
    cases hw
    refine rewrite_eq hv rfl rfl h (fun {key x} hx => ?_) fun {key} hx => ?_
    · rw [Json.last?_merge] at hx
      cases hgot : patch.get? key with
      | some x' =>
        rw [hgot] at hx
        cases hx
        simpa [along, Json.at?] using hgiven hgot
      | none =>
        rw [hgot, Option.none_or] at hx
        exact hown hx
    · rw [Json.last?_merge, Option.or_eq_none_iff] at hx
      rw [← hsorted.last?_eq, hx.2]
  | cons k keys ih =>
    obtain ⟨v', w', hv', hw', hsorted', hvleaf, hwleaf, hlast⟩ := Json.replace?_cons hsorted hw
    have hget : v.get? k = some v' := hsorted.last?_eq.symm.trans hv'
    -- The value on the way is written back as it is, too; all others are those that were there.
    have hchild : (P.child k).rewrite f v' = .ok (some v') := hget ▸ hown hv'
    refine rewrite_eq hv hvleaf hwleaf h (fun {key x} hx => ?_) fun {key} hx => ?_
    · rw [hlast] at hx
      split at hx
      · rename_i hkey
        cases hkey
        cases hx
        have hthere := (rewrites h).there ((hlast k).trans (if_pos rfl))
        rw [hthere, hget]
        refine congrArg Except.ok (ih hchild ?_ hw' hthere (fun hx => ?_) hsorted'
          (rewrites hchild).there)
        · simpa [Json.at?, hget] using hat
        · simpa [along, Json.at?, hget] using hgiven hx
      · exact hown hx
    · rw [hlast] at hx
      split at hx
      · cases hx
      · rw [← hsorted.last?_eq, hx]

end ShellSettings.Part
