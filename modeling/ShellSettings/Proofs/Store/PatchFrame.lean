import ShellSettings.Proofs.Store.PatchLaws
import ShellSettings.Proofs.Store.Supplied

/-!
# A patch touches only what it names

The members of a patch are merged into one object, but the whole document is written
and read again, settled and compared before it is committed. None of this shows
beside the members (`Store.Supplied.patched_only_named`): every leaf stays, only the
slots of dropped collections are cleared, and what is given for a part of any form
stands there as it was given.
-/

namespace ShellSettings

namespace Document

variable {before after d next : Document} {p : Path} {v x y : Json} {q : List String}
  {id : String}

def Drops (before after : Document) (id : String) : Prop :=
  before.hasCollection id = true ∧ after.hasCollection id = false

/-- What stood at a path was the slot of a collection that is dropped. -/
def Clears (before after : Document) (q : List String) (x : Json) : Prop :=
  ∃ slot id, q = Slot.path slot ∧ x = .str id ∧ before.Drops after id

/-- A path that leads to none of the members which are given at `p`. -/
def Aside (p : Path) (v : Json) (q : List String) : Prop :=
  ∀ key, (v.last? key).isSome → ¬ p.keys ++ [key] <+: q

/-- What the members of `v`, given at `p`, make of a document. Leaves are all values but objects. -/
structure PatchedInto (p : Path) (v : Json) (before after : Document) : Prop where
  kept : ∀ q x, Aside p v q → before.toValue.at? q = some x → x.isLeaf = true →
    ¬ before.Clears after q x → after.toValue.at? q = some x
  cleared : ∀ q x, Aside p v q → before.toValue.at? q = some x → before.Clears after q x →
    after.toValue.at? q = some .null
  -- A leaf is one that was there, or the null of a slot that is cleared.
  noneAppears : ∀ q y, Aside p v q → after.toValue.at? q = some y → y.isLeaf = true →
    before.toValue.at? q = some y ∨ ∃ x, before.toValue.at? q = some x ∧ before.Clears after q x
  -- The given value may be equal to the old one but for the sign of a zero; then the old one stays.
  given : ∀ key x, v.last? key = some x →
    (Part.document.along (p.keys ++ [key])).isFreeForm = true →
    ∃ y, after.toValue.at? (p.keys ++ [key]) = some y ∧ y.same x.sorted = true
  unreferenced : ∀ slot id, after.slot slot = some id → ¬ before.Drops after id

theorem not_drops_self : ¬ d.Drops d id := by
  rintro ⟨hthere, hgone⟩
  rw [hthere] at hgone
  cases hgone

theorem drops_settled : d.Drops (d.settled next) id ↔ (d.settling next).gone id = true :=
  gone_settling.symm

theorem clears_settled :
    d.Clears (d.settled next) q x ↔ (Part.document.along q).IsGone (d.settling next) x := by
  constructor
  · rintro ⟨slot, id, rfl, rfl, hdrops⟩
    exact ⟨Part.along_path, id, rfl, drops_settled.mp hdrops⟩
  · rintro ⟨hslot, id, rfl, hgone⟩
    obtain ⟨slot, rfl⟩ := Part.exists_path_of_along hslot
    exact ⟨slot, id, rfl, rfl, drops_settled.mpr hgone⟩

theorem leaf_settled (hd : d.WellFormed) (h : Store.patched d p v = .ok next)
    (haside : Aside p v q) (hx : d.toValue.at? q = some x) (hleaf : x.isLeaf = true) :
    (d.settled next).toValue.at? q =
      some ((Part.document.along q).finishLeaf (d.settling next) x) :=
  (Store.patched_leaf hd h haside).1 x hx hleaf

theorem given_settled {key : String} (h : Store.patched d p v = .ok next)
    (hx : v.last? key = some x) (hP : (Part.document.along (p.keys ++ [key])).isFreeForm = true) :
    (d.settled next).toValue.at? (p.keys ++ [key]) = some x.sorted :=
  Part.rewrite_freeForm hP (Store.patched_given h hx)

theorem patchedInto_self (h : Store.patched d p v = .ok next)
    (hsame : d.same (d.settled next) = true) : d.PatchedInto p v d where
  kept _ _ _ hx _ _ := hx
  cleared _ _ _ _ := fun ⟨_, _, _, _, hdrops⟩ => absurd hdrops not_drops_self
  noneAppears _ _ _ hy _ := .inl hy
  given key x hx hP := by
    have hrel : Json.SameIfAny (d.toValue.at? (p.keys ++ [key]))
        ((d.settled next).toValue.at? (p.keys ++ [key])) := Json.rel_at? (Json.same_sorted hsame)
    rw [given_settled h hx hP] at hrel
    generalize d.toValue.at? (p.keys ++ [key]) = got at hrel
    cases hrel with
    | some hsame => exact ⟨_, rfl, hsame⟩
  unreferenced _ _ _ := not_drops_self

theorem patchedInto_settled (hd : d.WellFormed) (h : Store.patched d p v = .ok next) :
    d.PatchedInto p v (d.settled next) where
  kept q x haside hx hleaf hstays := by
    rw [leaf_settled hd h haside hx hleaf,
      Part.finishLeaf_of_not_isGone (mt clears_settled.mpr hstays)]
  cleared q x haside hx hclears := by
    have hleaf : x.isLeaf = true := by
      obtain ⟨_, _, -, rfl, -⟩ := hclears
      rfl
    rw [leaf_settled hd h haside hx hleaf, Part.finishLeaf_of_isGone (clears_settled.mp hclears)]
  noneAppears q y haside hy hleaf := by
    obtain ⟨x, hx, hxleaf⟩ :=
      (Store.patched_leaf (f := d.settling next) hd h haside).2 y hy hleaf
    by_cases hclears : d.Clears (d.settled next) q x
    · exact .inr ⟨x, hx, hclears⟩
    · rw [leaf_settled hd h haside hx hxleaf,
        Part.finishLeaf_of_not_isGone (mt clears_settled.mpr hclears)] at hy
      exact .inl (hx.trans hy)
  given key x hx hP := ⟨x.sorted, given_settled h hx hP, Json.same_self _⟩
  unreferenced slot id hslot hdrops := by
    have hkept : (next.slot slot).filter (!(d.settling next).gone ·) = some id :=
      slot_clearSlots.symm.trans hslot
    have hstays := (Option.filter_eq_some_iff.mp hkept).2
    rw [drops_settled.mp hdrops] at hstays
    cases hstays

end Document

namespace Store

/-- In a store that a document was loaded into which was read from a value, whatever was done to it
since, a patch that goes through changes nothing but what it names. -/
theorem Supplied.patched_only_named {start s t : Store} {v₀ v : Json} {d₀ : Document}
    {taken : List Document} {p : Path} (decoded : Document.ofJson? v₀ = .ok d₀)
    (run : Supplied (start.install d₀).1 taken s) (h : s.patchAt p v = .ok t) :
    ∃ before after, s.get = .ok before ∧ t.get = .ok after ∧ before.PatchedInto p v after := by
  obtain ⟨l, next, hl, hnext, -, rfl⟩ := exists_of_patchAt h
  have hd : l.current.WellFormed :=
    ((run.readable (readable_install start (Document.wellFormed_of_read decoded))).1 l hl).1
  refine ⟨l.current, (l.committed (l.current.settled next)).current, by simp [get, hl], rfl, ?_⟩
  unfold Loaded.committed
  split
  · rename_i hsame
    exact Document.patchedInto_self hnext hsame
  · exact Document.patchedInto_settled hd hnext

def inNorway : Document where
  collections := [{ id := "fjords", name := "Fjords" }]
  monitors := Map.ofList [("M1", { workspaces := Map.ofList [("ws1", { wallpaper := "fjords" })] })]

def leaving : Json := .obj [("collections", .arr []), ("visited", .obj [("fjords", .bool true)])]

theorem patched_only_named_leaving :
    let s := (Store.install { ids := ⟨fun _ => "", 0⟩ } inNorway).1
    let slot := Slot.workspace "M1" "ws1"
    ∃ t before after, s.patchAt .root leaving = .ok t ∧ s.get = .ok before ∧ t.get = .ok after ∧
      before.toValue.at? slot.path = some (.str "fjords") ∧
      after.toValue.at? slot.path = some .null ∧
      ∃ y, after.toValue.at? ["visited"] = some y ∧
        y.same (.obj [("fjords", .bool true)]) = true := by
  intro s slot
  have decoded : Document.ofJson? inNorway.toValue = .ok inNorway := rfl
  obtain ⟨t, ht, hdropped⟩ : ∃ t, s.patchAt .root leaving = .ok t ∧
      ∀ after, t.get = .ok after → after.hasCollection "fjords" = false :=
    ⟨_, rfl, fun _ h => by cases h; rfl⟩
  obtain ⟨before, after, hbefore, hafter, into⟩ := Supplied.patched_only_named decoded .start ht
  have hslot : before.toValue.at? slot.path = some (.str "fjords") := by
    cases hbefore
    rfl
  have hthere : before.hasCollection "fjords" = true := by
    cases hbefore
    rfl
  have haside : Document.Aside .root leaving slot.path := by
    rintro key hkey hprefix
    obtain rfl : key = "monitors" := (List.cons_prefix_cons.mp hprefix).1
    cases hkey
  exact ⟨t, before, after, ht, hbefore, hafter, hslot,
    into.cleared _ _ haside hslot ⟨slot, _, rfl, rfl, hthere, hdropped after hafter⟩,
    into.given "visited" _ rfl rfl⟩

end Store

end ShellSettings
