import ShellSettings.Proofs.Document.Rewriting
import ShellSettings.Proofs.Document.SlotLaws
import ShellSettings.Proofs.Store.EditLaws

/-!
# What a patch commits

A patch merges members into one object of the written document and reads the
result. Before it is committed, the slots of the collections that it drops are
cleared (`Document.settled`). So what is committed can be told path by path from
the document before and the members that were given (`Store.patched_leaf`,
`Store.patched_given`).
-/

namespace ShellSettings

-- ---------------------------------------------------------------------------
-- Where slots stand
-- ---------------------------------------------------------------------------

def Slot.path : Slot → List String
  | .global => ["wallpaperCollection"]
  | .monitor m => ["monitors", m, "wallpaperCollection"]
  | .workspace m w => ["monitors", m, "byWorkspace", w, "wallpaperCollection"]

namespace Part

variable {P : Part} {q : List String} {slot : Slot}

theorem along_path : document.along slot.path = .slot := by cases slot <;> rfl

def hasSlots : Part → Bool
  | .document | .monitors | .monitor | .workspaces | .workspace | .slot => true
  | _ => false

theorem along_ne_slot (h : P.hasSlots = false) : P.along q ≠ .slot := by
  induction q generalizing P with
  | nil =>
    rintro rfl
    cases h
  | cons key q ih =>
    refine ih ?_
    cases P with
    | updater | widget => simp only [child]; split <;> rfl
    | widgets | instances | overrides | blob | leaf | free | dropped => rfl
    | document | monitors | monitor | workspaces | workspace | slot => cases h

theorem slot_along (h : Part.slot.along q = .slot) : q = [] := by
  cases q with
  | nil => rfl
  | cons key q => exact absurd h (along_ne_slot (P := .dropped) rfl)

theorem workspace_along (h : workspace.along q = .slot) : q = ["wallpaperCollection"] := by
  cases q with
  | nil => cases h
  | cons key q =>
    simp only [along, child] at h
    split at h
    · rw [slot_along h]
    · exact absurd h (along_ne_slot rfl)

theorem monitor_along (h : monitor.along q = .slot) :
    q = ["wallpaperCollection"] ∨ ∃ w, q = ["byWorkspace", w, "wallpaperCollection"] := by
  cases q with
  | nil => cases h
  | cons key q =>
    simp only [along, child] at h
    split at h
    · exact absurd h (along_ne_slot rfl)
    · cases q with
      | nil => cases h
      | cons w q => exact .inr ⟨w, by rw [workspace_along h]⟩
    · exact absurd h (along_ne_slot rfl)
    · exact .inl (by rw [slot_along h])
    · exact absurd h (along_ne_slot rfl)

theorem exists_path_of_along (h : document.along q = .slot) : ∃ slot : Slot, q = slot.path := by
  cases q with
  | nil => cases h
  | cons key q =>
    simp only [along, child] at h
    split at h
    case h_2 =>
      cases q with
      | nil => cases h
      | cons m q =>
        rcases monitor_along h with rfl | ⟨w, rfl⟩
        · exact ⟨.monitor m, rfl⟩
        · exact ⟨.workspace m w, rfl⟩
    case h_4 => exact ⟨.global, by rw [slot_along h]; rfl⟩
    all_goals exact absurd h (along_ne_slot rfl)

end Part

-- ---------------------------------------------------------------------------
-- Settling
-- ---------------------------------------------------------------------------

namespace Document

/-- What is done to a document that was read from a patch: no slot shall name a collection that the
patch has dropped, and no container shall be empty. -/
def settling (before next : Document) : Finish :=
  ⟨fun id => (before.removedCollections next).contains id, true⟩

def settled (before next : Document) : Document := (before.settling next).document next

variable {d before next : Document} {gone : String → Bool} {id : String} {c : Catalog}

theorem toValue_sorted (d : Document) : d.toValue.IsSorted := Json.sorted_sorted _

theorem eq_of_toValue {e : Document} (hd : d.WellFormed) (he : e.WellFormed)
    (h : d.toValue = e.toValue) : d = e := by
  have hread := ofJson?_toValue hd
  rw [h, ofJson?_toValue he] at hread
  exact (Except.ok.inj hread).symm

theorem gone_settling : (before.settling next).gone id = true ↔
    before.hasCollection id = true ∧ next.hasCollection id = false := by
  simp only [settling, removedCollections, List.contains_iff_mem, List.mem_map, List.mem_filter,
    Bool.not_eq_true', hasCollection_iff]
  constructor
  · rintro ⟨c, ⟨hc, hgone⟩, rfl⟩
    exact ⟨⟨c, hc, rfl⟩, hgone⟩
  · rintro ⟨⟨c, hc, rfl⟩, hgone⟩
    exact ⟨c, ⟨hc, hgone⟩, rfl⟩

theorem WellFormed.tidy (hd : d.WellFormed) : (Finish.document ⟨gone, true⟩ d).WellFormed :=
  hd.clearSlots.normalize

theorem tidy_eq_normalize (h : d.slotsNaming gone = []) :
    Finish.document ⟨gone, true⟩ d = d.normalize := by
  rw [Finish.document_tidy, clearSlots_eq_self h]

theorem tidy_tidy : Finish.document ⟨gone, true⟩ (Finish.document ⟨gone, true⟩ d) =
    Finish.document ⟨gone, true⟩ d := by
  have hslots : (Finish.document ⟨gone, true⟩ d).slotsNaming gone = [] :=
    slotsNaming_clearSlots (d := d)
  rw [tidy_eq_normalize hslots]
  exact normalized_normalize (d.clearSlots gone)

theorem normalized_settled : (before.settled next).Normalized :=
  normalized_normalize (next.clearSlots _)

theorem settled_eq_normalize (h : ∀ id, next.hasCollection id = before.hasCollection id) :
    before.settled next = next.normalize := by
  refine tidy_eq_normalize (slotsNaming_eq_nil.mpr fun slot id _ => Bool.eq_false_iff.mpr ?_)
  intro hgone
  obtain ⟨hthere, hnone⟩ := gone_settling.mp hgone
  rw [h, hthere] at hnone
  cases hnone

end Document

-- ---------------------------------------------------------------------------
-- Patching
-- ---------------------------------------------------------------------------

namespace Store

variable {s t : Store} {d next : Document} {p : Path} {v x : Json} {key : String}
  {q : List String} {f : Finish}

theorem exists_of_patched (h : patched d p v = .ok next) : ∃ members old after,
    v = .obj members ∧ d.toValue.at? p.keys = some (.obj old) ∧
      Json.replace? (.ofMap (Blob.merge (Map.ofList old) (Map.ofList members))) p.keys d.toValue =
        some after ∧
      Part.document.rewrite f after = .ok (some (f.document next).toValue) := by
  unfold patched at h
  dsimp only at h
  split at h
  · rename_i members
    split at h
    · cases h
    · rename_i old hat
      split at h
      · cases h
      · rename_i after hafter
        split at h
        · cases h
        · rename_i hread
          cases h
          refine ⟨members, old, after, rfl, hat, hafter, ?_⟩
          rw [Part.rewrite, show Document.read after = .ok next from hread]
          rfl
    · cases h
  · cases h

/-- A patch that goes through was read, leaves nothing dangling, and commits what it was read to,
settled. -/
theorem exists_of_patchAt (h : s.patchAt p v = .ok t) : ∃ l next, s.loaded = some l ∧
    patched l.current p v = .ok next ∧ (l.current.settled next).dangling s.catalog = [] ∧
    t = { s with
      loaded := some (l.committed (l.current.settled next))
      restartRequired := s.restartRequired ||
        (s.policy.changedPath l.current.toValue (l.current.settled next).toValue).isSome } := by
  obtain ⟨before, hbefore, h⟩ := bind_eq_ok h
  obtain ⟨next, hnext, h⟩ := bind_eq_ok h
  obtain ⟨committed, hcommit, h⟩ := bind_eq_ok h
  obtain ⟨l, hl, rfl⟩ := get_eq_ok hbefore
  change s.commit "patch" (l.current.settled next) = .ok committed at hcommit
  obtain ⟨hdangling, l', hl', rfl⟩ := commit_eq_ok.mp hcommit
  obtain rfl : l = l' := Option.some.inj (hl.symm.trans hl')
  rw [Document.normalized_settled] at hdangling h
  refine ⟨l, next, hl, hnext, hdangling, ?_⟩
  split at h
  all_goals
    rename_i hchanged
    change s.policy.changedPath l.current.toValue (l.current.settled next).toValue = _ at hchanged
    cases h
    simp [hchanged]

/-- Whatever is done to slots, a leaf stays where nothing was given for it, and none appears. -/
theorem patched_leaf (hd : d.WellFormed) (h : patched d p v = .ok next)
    (haside : ∀ key, (v.last? key).isSome → ¬ p.keys ++ [key] <+: q) :
    (∀ x, d.toValue.at? q = some x → x.isLeaf = true →
      (f.document next).toValue.at? q = some ((Part.document.along q).finishLeaf f x)) ∧
    ∀ y, (f.document next).toValue.at? q = some y → y.isLeaf = true →
      ∃ x, d.toValue.at? q = some x ∧ x.isLeaf = true := by
  obtain ⟨members, old, after, rfl, hat, hafter, hwritten⟩ := exists_of_patched (f := f) h
  have hplain : Part.document.rewrite .plain d.toValue = .ok (some d.toValue) := by
    rw [Part.rewrite, show Document.read d.toValue = .ok d from Document.ofJson?_toValue hd]
    exact congrArg (fun d => Except.ok (some d.toValue)) (Finish.document_plain d)
  exact Part.rewrite_agree (Json.agree_replace? d.toValue_sorted hat hafter haside)
    d.toValue_sorted hplain hwritten

theorem patched_given (h : patched d p v = .ok next) (hx : v.last? key = some x) :
    (Part.document.along (p.keys ++ [key])).rewrite f x =
      .ok ((f.document next).toValue.at? (p.keys ++ [key])) := by
  obtain ⟨members, old, after, rfl, hat, hafter, hwritten⟩ := exists_of_patched (f := f) h
  exact Part.rewrite_along hwritten (Json.lastAt?_replace? d.toValue_sorted hat hafter hx)

end Store

end ShellSettings
