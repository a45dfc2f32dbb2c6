import ShellSettings.Proofs.Store.PatchLaws
import ShellSettings.Proofs.Store.Revisions

/-!
# The same patch once more

A patch that has gone through is given again at once. What it is merged into differs
from the first time: the document was read, settled and written in between. Still the
members given are written as what already stands under their keys, so the document
that is read is settled to the one before (`Store.settled_again`), and nothing is left
to commit. Where the patch dropped a collection, and still has a slot that names it,
it is refused.
-/

namespace ShellSettings.Store

variable {s t u : Store} {d next again : Document} {p : Path} {v : Json}
  {gone : String → Bool} {c : Catalog}

theorem rewrite_tidy (hd : d.WellFormed) :
    Part.document.rewrite ⟨gone, true⟩ (Finish.document ⟨gone, true⟩ d).toValue =
      .ok (some (Finish.document ⟨gone, true⟩ d).toValue) := by
  rw [Part.rewrite, show Document.read _ = _ from Document.ofJson?_toValue hd.tidy]
  exact congrArg (fun d => Except.ok (some d.toValue)) Document.tidy_tidy

theorem tidy_again (h : patched d p v = .ok next)
    (h' : patched (Finish.document ⟨gone, true⟩ next) p v = .ok again) :
    Finish.document ⟨gone, true⟩ again = Finish.document ⟨gone, true⟩ next := by
  obtain ⟨members, old, after, rfl, hat, hafter, hwritten⟩ :=
    exists_of_patched (f := ⟨gone, true⟩) h'
  have hsame := Part.rewrite_patched (rewrite_tidy (wellFormed_of_patched h)) hat hafter hwritten
    fun hx => patched_given h hx
  exact Document.eq_of_toValue (wellFormed_of_patched h').tidy (wellFormed_of_patched h).tidy
    (Option.some.inj hsame)

/-- What the patch makes of its own result is that result, if nothing dangles in it: no slot can
name what the patch has dropped. -/
theorem settled_again (h : patched d p v = .ok next)
    (h' : patched (d.settled next) p v = .ok again)
    (hdangling : ((d.settled next).settled again).dangling c = []) :
    (d.settled next).settled again = d.settled next := by
  let gone := (d.settling next).gone
  have hagain : Finish.document ⟨gone, true⟩ again = Finish.document ⟨gone, true⟩ next :=
    tidy_again h h'
  have hcollections : (Finish.document ⟨gone, true⟩ again).collections =
      (Finish.document ⟨gone, true⟩ next).collections := by rw [hagain]
  have hhas : ∀ id, again.hasCollection id = next.hasCollection id := fun id => by
    rw [Document.hasCollection, Document.collection?,
      show again.collections = next.collections from hcollections]
    rfl
  have hsettled : (d.settled next).settled again = again.normalize :=
    Document.settled_eq_normalize hhas
  rw [hsettled] at hdangling ⊢
  have hslots : again.slotsNaming gone = [] := by
    refine Document.slotsNaming_eq_nil.mpr fun slot id hslot => ?_
    have hhere : again.hasCollection id = true :=
      (Document.dangling_eq_nil.mp hdangling).1 slot id hslot
    rw [hhas] at hhere
    refine Bool.eq_false_iff.mpr fun hgone => ?_
    rw [(Document.gone_settling.mp hgone).2] at hhere
    cases hhere
  rw [← Document.tidy_eq_normalize hslots, hagain]
  rfl

theorem changedPath_of_same {w : Json} (r : RestartPolicy) (h : v.same w = true) :
    r.changedPath v w = none := by
  refine List.find?_eq_none.mpr fun p _ => ?_
  have hplace : Json.SameIfAny (p.resolve v) (p.resolve w) := Json.rel_at? h
  unfold RestartPolicy.sameAt
  generalize p.resolve v = a, p.resolve w = b at hplace
  cases hplace with
  | none => simp
  | some hab => simp [hab]

theorem patchAt_again (h : s.patchAt p v = .ok t) (h' : t.patchAt p v = .ok u) : u = t := by
  obtain ⟨l, next, hl, hnext, hdangling, rfl⟩ := exists_of_patchAt h
  obtain ⟨l', again, hl', hagain, hdangling', rfl⟩ := exists_of_patchAt h'
  obtain rfl : l.committed (l.current.settled next) = l' := Option.some.inj hl'
  by_cases hsame : l.current.same (l.current.settled next) = true
  · -- The first patch has left the document alone, and the second does what the first did.
    have hcommitted : l.committed (l.current.settled next) = l := if_pos hsame
    rw [hcommitted] at hagain ⊢
    obtain rfl : next = again := Except.ok.inj (hnext.symm.trans hagain)
    rw [hcommitted]
    simp
  · have hcurrent : (l.committed (l.current.settled next)).current = l.current.settled next := by
      rw [Loaded.committed, if_neg hsame]
    rw [hcurrent] at hagain hdangling' ⊢
    rw [settled_again hnext hagain hdangling', changedPath_of_same _ (Json.same_self _)]
    simp [Loaded.committed, Document.same_self, hsame]

/-- Once a patch has gone through, the same patch changes nothing, whether it goes through again or
is refused: neither document, nor the revision, nor what is to be saved, nor whether a restart is
needed. -/
theorem patch_again {s t : Store} {v : Json} :
    (∀ path, s.patch path v = .ok t → (t.execute (.patch path v)).2 = t) ∧
      ∀ p, s.patchAt p v = .ok t → (t.execute (.patchAt p v)).2 = t := by
  have hat : ∀ p, s.patchAt p v = .ok t → (t.settle (t.patchAt p v)).2 = t := by
    intro p h
    cases h' : t.patchAt p v with
    | ok u => exact patchAt_again h h'
    | error e => rfl
  refine ⟨fun path h => ?_, hat⟩
  unfold patch at h
  simp only [execute, patch]
  split at h
  · cases h
  · exact hat _ h

def onlyFjords : Document :=
  { wallpaper := some "fjords", collections := [{ id := "fjords", name := "Fjords" }] }

def withoutFjords : Json :=
  .obj [("collections", .arr []), ("wallpaperCollection", .str "fjords")]

/-- The first time the slot is cleared with the collection; the second time there is no collection
to drop, and the slot would dangle. -/
theorem patch_again_refused :
    let s := (Store.install { ids := ⟨fun _ => "", 0⟩ } onlyFjords).1
    ∃ t e, s.patch "" withoutFjords = .ok t ∧ t.patch "" withoutFjords = .error e ∧
      (t.execute (.patch "" withoutFjords)).2 = t := by
  intro s
  obtain ⟨t, ht, e, he⟩ : ∃ t, s.patch "" withoutFjords = .ok t ∧
      ∃ e, t.patch "" withoutFjords = .error e := ⟨_, rfl, _, rfl⟩
  exact ⟨t, e, ht, he, patch_again.1 "" ht⟩

end ShellSettings.Store
