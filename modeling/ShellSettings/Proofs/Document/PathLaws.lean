import ShellSettings.Proofs.Document.MergeLaws
import ShellSettings.Proofs.Json.LookupLaws
import ShellSettings.Proofs.Json.SameLaws

/-!
# What stands at a path

Replacing the object at a path by one with more keys changes nothing beside those
keys (`Json.agree_replace?`), and what was given for them stands at the path
followed by the key (`Json.lastAt?_replace?`). Values that are the same have the
same at every path.
-/

namespace ShellSettings

theorem Map.get?_written {α : Type} (write : α → Json) (m : Map α) (key : String) :
    (m.toJson write).get? key = (m.get? key).map write :=
  Map.lookup_map_snd (fun _ => write) key m.entries

namespace Json

variable {v w x new : Json} {key : String} {keys q : List String}
  {members : List (String × Json)} {patch : Blob}

theorem rel_at? (h : v.same w = true) : SameIfAny (v.at? keys) (w.at? keys) := by
  induction keys generalizing v w with
  | nil => exact .some h
  | cons key keys ih =>
    have hkey : SameIfAny (v.get? key) (w.get? key) := rel_get? h
    simp only [at?]
    generalize v.get? key = a, w.get? key = b at hkey
    cases hkey with
    | none => exact .none
    | some hab => exact ih hab

def isLeaf : Json → Bool
  | .obj _ => false
  | _ => true

theorem isLeaf_sorted : v.sorted.isLeaf = v.isLeaf := by cases v <;> rfl

theorem exists_of_isLeaf (h : v.isLeaf = false) : ∃ members, v = .obj members := by
  cases v with
  | obj members => exact ⟨members, rfl⟩
  | null | bool | num | str | arr => cases h

theorem IsSorted.ext (hv : v.IsSorted) (hw : w.IsSorted) (hvleaf : v.isLeaf = false)
    (hwleaf : w.isLeaf = false) (h : ∀ key, v.get? key = w.get? key) : v = w := by
  obtain ⟨members, rfl⟩ := exists_of_isLeaf hvleaf
  obtain ⟨others, rfl⟩ := exists_of_isLeaf hwleaf
  obtain ⟨m, rfl⟩ := hv.exists_entries
  obtain ⟨n, rfl⟩ := hw.exists_entries
  rw [Map.ext_get? h]

/-- What stands at a path as it was written, of a repeated key the last. -/
def lastAt? : List String → Json → Option Json
  | [], v => some v
  | key :: keys, v => (v.last? key).bind (lastAt? keys)

/-- Two values agree along a path if neither, or both, have each key of it, and what is at its end
is equal or an object in both. -/
def Agree : List String → Json → Json → Prop
  | [], v, w => v = w ∨ (v.isLeaf = false ∧ w.isLeaf = false)
  | key :: keys, v, w => Option.Rel (Agree keys) (v.last? key) (w.last? key)

theorem Agree.refl (keys : List String) (v : Json) : Agree keys v v := by
  induction keys generalizing v with
  | nil => exact .inl rfl
  | cons key keys ih =>
    unfold Agree
    cases v.last? key with
    | none => exact .none
    | some x => exact .some (ih x)

theorem last?_ofMap (m : Blob) : (Json.ofMap m).last? key = m.get? key :=
  congrArg (Map.get? · key) (Map.ofList_entries m)

theorem last?_obj (hkeys : (members.map (·.1)).Nodup) :
    (Json.obj members).last? key = members.lookup key := by
  rw [last?, Map.ofList, Map.get?_insertAll hkeys, Map.get?_empty, Option.or_none]

theorem keys_setMember : (setMember key x members).map (·.1) = members.map (·.1) := by
  induction members with
  | nil => rfl
  | cons m members ih =>
    unfold setMember
    split <;> simp_all

theorem lookup_setMember (h : (members.lookup key).isSome) (key' : String) :
    (setMember key x members).lookup key' = if key' = key then some x else members.lookup key' := by
  induction members with
  | nil => cases h
  | cons m members ih =>
    obtain ⟨k, v⟩ := m
    unfold setMember
    split
    · rename_i hk
      subst hk
      by_cases hkey : key' = k <;> simp [Map.lookup_cons, hkey]
    · rename_i hk
      rw [Map.lookup_cons, if_neg (Ne.symm hk)] at h
      rw [Map.lookup_cons, ih h, Map.lookup_cons]
      by_cases hkey : key' = k
      · simp [hkey, hk]
      · simp [hkey]

theorem replace?_cons (hv : v.IsSorted) (h : replace? new (key :: keys) v = some w) :
    ∃ v' w', v.last? key = some v' ∧ replace? new keys v' = some w' ∧ v'.IsSorted ∧
      v.isLeaf = false ∧ w.isLeaf = false ∧
      ∀ key', w.last? key' = if key' = key then some w' else v.last? key' := by
  cases v with
  | obj members =>
    obtain ⟨v', hv', h⟩ := Option.bind_eq_some_iff.mp h
    obtain ⟨w', hw', h⟩ := Option.bind_eq_some_iff.mp h
    cases h
    obtain ⟨m, rfl⟩ := hv.exists_entries
    refine ⟨v', w', hv.last?_eq.trans hv', hw', hv.get? hv', rfl, rfl, fun key' => ?_⟩
    rw [last?_obj (by rw [keys_setMember]; exact m.nodup_keys),
      lookup_setMember (Option.isSome_iff_exists.mpr ⟨v', hv'⟩), last?_obj m.nodup_keys]
  | null | bool | num | str | arr => cases h

section Patch

variable {old : List (String × Json)}

theorem last?_merge :
    (Json.ofMap (Blob.merge (Map.ofList old) patch)).last? key =
      (patch.get? key).or ((Json.obj old).last? key) := by
  rw [last?_ofMap, Blob.get?_merge]
  rfl

theorem agree_replace? (hv : v.IsSorted) (hat : v.at? keys = some (.obj old))
    (h : replace? (.ofMap (Blob.merge (Map.ofList old) patch)) keys v = some w)
    (haside : ∀ key, (patch.get? key).isSome → ¬ keys ++ [key] <+: q) : Agree q v w := by
  induction keys generalizing v w q with
  | nil =>
    cases hat
    cases h
    cases q with
    | nil => exact .inr ⟨rfl, rfl⟩
    | cons key q =>
      have hnone : patch.get? key = none := by
        refine Option.not_isSome_iff_eq_none.mp fun hsome => haside key hsome ?_
        exact List.prefix_append [key] q
      unfold Agree
      rw [last?_merge, hnone, Option.none_or]
      exact Agree.refl (key :: q) _
  | cons k keys ih =>
    obtain ⟨v', w', hv', hw', hsorted, hleaf, hleaf', hlast⟩ := replace?_cons hv h
    cases q with
    | nil => exact .inr ⟨hleaf, hleaf'⟩
    | cons key q =>
      unfold Agree
      rw [hlast]
      by_cases hkey : key = k
      · subst hkey
        rw [if_pos rfl, hv']
        have hat' : v'.at? keys = some (.obj old) := by
          simpa [at?, ← hv.last?_eq, hv'] using hat
        refine .some (ih hsorted hat' hw' fun key' hsome hprefix => haside key' hsome ?_)
        exact List.cons_prefix_cons.mpr ⟨rfl, hprefix⟩
      · rw [if_neg hkey]
        exact Agree.refl (key :: q) v

theorem lastAt?_replace? (hv : v.IsSorted) (hat : v.at? keys = some (.obj old))
    (h : replace? (.ofMap (Blob.merge (Map.ofList old) patch)) keys v = some w)
    (hx : patch.get? key = some x) : w.lastAt? (keys ++ [key]) = some x := by
  induction keys generalizing v w with
  | nil =>
    cases hat
    cases h
    simp [lastAt?, last?_merge, hx]
  | cons k keys ih =>
    obtain ⟨v', w', hv', hw', hsorted, -, -, hlast⟩ := replace?_cons hv h
    have hat' : v'.at? keys = some (.obj old) := by
      simpa [at?, ← hv.last?_eq, hv'] using hat
    simpa [lastAt?, hlast] using ih hsorted hat' hw'

end Patch

end Json

end ShellSettings
