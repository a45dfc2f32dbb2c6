import ShellSettings.Proofs.Document.PathLaws

/-!
# Paths as lenses

A path leads to a place of a value, if every key on the way is there. What is put at the
place is read from it, what stands beside the way stays, and putting the old value back
undoes it all (`Path.lens_laws`). Of a repeated key the first member is meant throughout,
so the laws hold of objects in any order. A configuration reads a written path as the
path does that is written.
-/

namespace ShellSettings

namespace Json

variable {v w x y : Json} {key : String} {keys q r : List String}
  {members : List (String × Json)}

theorem at?_append : v.at? (keys ++ r) = (v.at? keys).bind (at? r) := by
  induction keys generalizing v with
  | nil => rfl
  | cons key keys ih =>
    simp only [List.cons_append, at?, Option.bind_assoc]
    exact Option.bind_congr fun _ _ => ih

theorem get?_of_isLeaf (h : v.isLeaf = true) : v.get? key = none := by
  cases v with
  | obj members => cases h
  | null | bool | num | str | arr => rfl

theorem at?_eq_none_of_isLeaf (hq : v.at? q = some x) (hx : x.isLeaf = true) :
    v.at? (q ++ key :: r) = none := by
  rw [at?_append, hq, Option.bind_some, at?, get?_of_isLeaf hx, Option.bind_none]

-- ---------------------------------------------------------------------------
-- Members
-- ---------------------------------------------------------------------------

theorem setMember_setMember :
    setMember key y (setMember key x members) = setMember key y members := by
  induction members with
  | nil => rfl
  | cons m members ih =>
    obtain ⟨k, v⟩ := m
    by_cases hk : k = key <;> simp [setMember, hk, ih]

theorem setMember_self (h : members.lookup key = some x) : setMember key x members = members := by
  induction members with
  | nil => rfl
  | cons m members ih =>
    obtain ⟨k, v⟩ := m
    rw [Map.lookup_cons] at h
    by_cases hk : k = key
    · subst hk
      cases Option.some.inj ((if_pos rfl).symm.trans h)
      simp [setMember]
    · rw [if_neg (Ne.symm hk)] at h
      simp [setMember, hk, ih h]

-- ---------------------------------------------------------------------------
-- Replacing
-- ---------------------------------------------------------------------------

theorem replace?_cons_eq_some : replace? x (key :: keys) v = some w ↔
    ∃ members old new, v = .obj members ∧ members.lookup key = some old ∧
      replace? x keys old = some new ∧ w = .obj (setMember key new members) := by
  constructor
  · intro h
    cases v with
    | obj members =>
      obtain ⟨old, hold, h⟩ := Option.bind_eq_some_iff.mp h
      obtain ⟨new, hnew, h⟩ := Option.bind_eq_some_iff.mp h
      exact ⟨members, old, new, rfl, hold, hnew, (Option.some.inj h).symm⟩
    | null | bool | num | str | arr => cases h
  · rintro ⟨members, old, new, rfl, hold, hnew, rfl⟩
    change (members.lookup key).bind _ = _
    rw [hold, Option.bind_some, hnew]
    rfl

theorem isSome_replace? : (replace? x keys v).isSome = (v.at? keys).isSome := by
  induction keys generalizing v with
  | nil => rfl
  | cons key keys ih =>
    cases v with
    | obj members =>
      change ((members.lookup key).bind _).isSome = ((members.lookup key).bind _).isSome
      cases members.lookup key with
      | none => rfl
      | some old =>
        have hold := ih (v := old)
        cases hnew : replace? x keys old <;> simp_all
    | null | bool | num | str | arr => rfl

theorem at?_replace? (h : replace? x keys v = some w) : w.at? keys = some x := by
  induction keys generalizing v w with
  | nil => exact h.symm
  | cons key keys ih =>
    obtain ⟨members, old, new, rfl, hold, hnew, rfl⟩ := replace?_cons_eq_some.mp h
    have hget : (obj (setMember key new members)).get? key = some new :=
      (lookup_setMember (by simp [hold]) key).trans (if_pos rfl)
    rw [at?, hget]
    exact ih hnew

theorem replace?_replace? (h : replace? x keys v = some w) :
    replace? y keys w = replace? y keys v := by
  induction keys generalizing v w with
  | nil => rfl
  | cons key keys ih =>
    obtain ⟨members, old, new, rfl, hold, hnew, rfl⟩ := replace?_cons_eq_some.mp h
    have hlookup : (setMember key new members).lookup key = some new :=
      (lookup_setMember (by simp [hold]) key).trans (if_pos rfl)
    change ((setMember key new members).lookup key).bind _ = (members.lookup key).bind _
    rw [hlookup, hold, Option.bind_some, Option.bind_some, ih hnew]
    simp only [setMember_setMember]

theorem replace?_self (h : v.at? keys = some x) : replace? x keys v = some v := by
  induction keys generalizing v with
  | nil => exact h.symm
  | cons key keys ih =>
    obtain ⟨old, hold, hx⟩ := Option.bind_eq_some_iff.mp h
    cases v with
    | obj members =>
      exact replace?_cons_eq_some.mpr
        ⟨members, old, old, rfl, hold, ih hx, by rw [setMember_self hold]⟩
    | null | bool | num | str | arr => cases hold

theorem at?_replace?_aside (h : replace? x keys v = some w) (hq : ¬ q <+: keys)
    (hkeys : ¬ keys <+: q) : w.at? q = v.at? q := by
  induction keys generalizing v w q with
  | nil => exact absurd List.nil_prefix hkeys
  | cons key keys ih =>
    obtain ⟨members, old, new, rfl, hold, hnew, rfl⟩ := replace?_cons_eq_some.mp h
    cases q with
    | nil => exact absurd List.nil_prefix hq
    | cons k q =>
      have hget : (obj (setMember key new members)).get? k =
          if k = key then some new else members.lookup k :=
        lookup_setMember (by simp [hold]) k
      have hold' : (obj members).get? k = members.lookup k := rfl
      rw [at?, at?, hget, hold']
      by_cases hk : k = key
      · -- The paths part further down.
        subst hk
        rw [if_pos rfl, hold]
        refine ih hnew (fun hprefix => hq ?_) fun hprefix => hkeys ?_
        · exact List.cons_prefix_cons.mpr ⟨rfl, hprefix⟩
        · exact List.cons_prefix_cons.mpr ⟨rfl, hprefix⟩
      · rw [if_neg hk]

end Json

-- ---------------------------------------------------------------------------
-- Written paths
-- ---------------------------------------------------------------------------

namespace Path

variable {p : Path} {v : Json} {text : String}

theorem splitDots_ne_nil (cs : List Char) : splitDots cs ≠ [] := by
  cases cs with
  | nil => simp [splitDots]
  | cons c cs =>
    simp only [splitDots]
    split
    · simp
    · split <;> simp

theorem dotted_ne_nil (text : String) : dotted text ≠ [] := by
  simpa [dotted] using splitDots_ne_nil text.toList

theorem keys_of_parse (hp : parse text = .ok p) (hne : text ≠ "") : p.keys = dotted text := by
  unfold parse at hp
  split at hp
  · exact absurd (String.isEmpty_iff.mp (by assumption)) hne
  · split at hp
    · cases hp
    · cases hp
      rfl

theorem get?_eq_resolve (e : Effective) (hp : parse text = .ok p) (hne : text ≠ "") :
    e.get? text = p.resolve (.ofMap e.config) := by
  rw [resolve, keys_of_parse hp hne, Effective.get?]
  split
  · exact absurd (by assumption) (dotted_ne_nil text)
  · rename_i key keys hkeys
    rw [hkeys]
    rfl

/-- A path has a place to put something exactly where it leads to something, whatever its keys are.
What is put there is read there and below, what stands at a path beside it stays, and putting the
old value back restores the original. A path that runs into a list or a leaf leads nowhere. A
configuration has at a written path what the path that is read from it leads to. -/
theorem lens_laws (p : Path) (v : Json) :
    (∀ x, (p.replace? x v).isSome = (p.resolve v).isSome) ∧
    (∀ x w, p.replace? x v = some w →
      p.resolve w = some x ∧
      (∀ r : Path, Path.resolve ⟨p.keys ++ r.keys⟩ w = r.resolve x) ∧
      (∀ q : Path, ¬ q.keys <+: p.keys → ¬ p.keys <+: q.keys → q.resolve w = q.resolve v) ∧
      ∀ old, p.resolve v = some old → p.replace? old w = some v) ∧
    (∀ (q r : Path) key leaf, p.keys = q.keys ++ key :: r.keys → q.resolve v = some leaf →
      leaf.isLeaf = true → p.resolve v = none ∧ ∀ x, p.replace? x v = none) ∧
    ∀ text (e : Effective), text ≠ "" → parse text = .ok p →
      e.get? text = p.resolve (.ofMap e.config) := by
  refine ⟨fun x => Json.isSome_replace?, fun x w h => ⟨Json.at?_replace? h, fun r => ?_,
    fun q => Json.at?_replace?_aside h, fun old hold => ?_⟩, fun q r key leaf hkeys hq hleaf => ?_,
    fun text e hne hp => get?_eq_resolve e hp hne⟩
  · have hx : w.at? p.keys = some x := Json.at?_replace? h
    rw [resolve, Json.at?_append, hx]
    rfl
  · exact (Json.replace?_replace? h).trans (Json.replace?_self hold)
  · have hnone : p.resolve v = none := by
      rw [resolve, hkeys]
      exact Json.at?_eq_none_of_isLeaf hq hleaf
    refine ⟨hnone, fun x => Option.isNone_iff_eq_none.mp ?_⟩
    have hplace : (p.replace? x v).isSome = (p.resolve v).isSome := Json.isSome_replace?
    rw [hnone] at hplace
    simpa using hplace

/-- A key with a dot in it is put something under, beside a list that no path leads into. -/
theorem lens_laws_dotted_key :
    let clock (size : Int) : Json := .obj [("size", .int size)]
    let v : Json := .obj [
      ("byWidget", .obj [("clock.v2", clock 1), ("dock", .arr [.null])]), ("language", .str "en")]
    let p : Path := ⟨["byWidget", "clock.v2"]⟩
    let e : Effective := ⟨⟨"dock", none, none⟩, Map.ofList [("margins", .obj [("top", .int 6)])]⟩
    (∃ w, p.replace? (clock 2) v = some w ∧ resolve ⟨["byWidget", "clock.v2", "size"]⟩ w =
        some (.int 2) ∧ resolve ⟨["byWidget", "dock"]⟩ w = some (.arr [.null]) ∧
      p.replace? (clock 1) w = some v) ∧
    resolve ⟨["byWidget", "dock", "0"]⟩ v = none ∧
    ∃ q, parse "margins.top" = .ok q ∧ e.get? "margins.top" = q.resolve (.ofMap e.config) ∧
      e.get? "margins.top" = some (.int 6) := by
  intro clock v p e
  refine ⟨?_, ?_, ⟨["margins", "top"]⟩, rfl, ?_, rfl⟩
  · obtain ⟨-, puts, -⟩ := lens_laws p v
    obtain ⟨w, hw⟩ : ∃ w, p.replace? (clock 2) v = some w := ⟨_, rfl⟩
    obtain ⟨-, below, aside, undo⟩ := puts (clock 2) w hw
    exact ⟨w, hw, below ⟨["size"]⟩, aside ⟨["byWidget", "dock"]⟩ (by decide) (by decide),
      undo (clock 1) rfl⟩
  · exact ((lens_laws ⟨["byWidget", "dock", "0"]⟩ v).2.2.1 ⟨["byWidget", "dock"]⟩ .root "0" _ rfl
      rfl rfl).1
  · exact (lens_laws ⟨["margins", "top"]⟩ v).2.2.2 "margins.top" e (by decide) rfl

end Path

end ShellSettings
