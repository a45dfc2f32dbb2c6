import Mathlib.Data.List.ReduceOption
import ShellSettings.Document.Cascade
import ShellSettings.Proofs.MapLaws

/-!
# Merging levels

What a merge has under a key is what the upper level has, or else the lower
(`Blob.get?_merge`). So merging is associative with the empty blob as its unit, and a
list of levels can be merged in any parts. All together they have under each key, whole,
what the last level has that has the key at all (`Blob.get?_mergeLevels_eq_some`),
in whichever way they are put together (`Blob.merge_algebra`).
-/

namespace ShellSettings.Blob

variable {base middle upper last : Blob} {levels front back : List (Option Blob)} {key : String}
  {value : Json}

theorem get?_merge (base upper : Blob) (key : String) :
    (merge base upper).get? key = (upper.get? key).or (base.get? key) :=
  Map.get?_insertAll upper.nodup_keys

theorem merge_empty : merge base ∅ = base := rfl

theorem empty_merge : merge ∅ upper = upper := Map.ofList_entries upper

theorem merge_assoc : merge (merge base middle) upper = merge base (merge middle upper) := by
  refine Map.ext_get? fun key => ?_
  simp only [get?_merge, Option.or_assoc]

instance : Std.Associative merge := ⟨fun _ _ _ => merge_assoc⟩

theorem merge_again : merge (merge base upper) upper = merge base upper := by
  refine Map.ext_get? fun key => ?_
  rw [get?_merge, get?_merge, ← Option.or_assoc, Option.or_self]

theorem absorb_eq_merge (base upper : Blob) : absorb base upper = merge base upper := by
  fun_induction absorb base upper with
  | case1 => rfl
  | case2 base key value rest sorted ih =>
    -- Merging puts the first entry in as well, and goes on with the rest.
    exact ih

theorem mergeLevels_append :
    mergeLevels (front ++ back) = merge (mergeLevels front) (mergeLevels back) := by
  -- What goes on top of a blob can be merged by itself first.
  have hfoldl : back.reduceOption.foldl merge (merge (mergeLevels front) ∅) =
      merge (mergeLevels front) (mergeLevels back) := List.foldl_assoc
  rw [← hfoldl, merge_empty, mergeLevels, List.reduceOption_append, List.foldl_append]
  rfl

theorem mergeLevels_singleton (level : Option Blob) : mergeLevels [level] = level.getD ∅ := by
  cases level with
  | none => rfl
  | some level => exact empty_merge

theorem mergeLevels_cons (level : Option Blob) (levels : List (Option Blob)) :
    mergeLevels (level :: levels) = merge (level.getD ∅) (mergeLevels levels) := by
  rw [← mergeLevels_singleton, ← mergeLevels_append]
  rfl

theorem get?_mergeLevels (levels : List (Option Blob)) (key : String) :
    (mergeLevels levels).get? key =
      levels.reverse.findSome? fun level => level.bind (·.get? key) := by
  induction levels with
  | nil => rfl
  | cons level levels ih =>
    -- Later levels are asked before this one.
    rw [mergeLevels_cons, get?_merge, ih, List.reverse_cons, List.findSome?_append]
    cases level with
    | none => rfl
    | some level => cases h : level.get? key <;> simp [List.findSome?, h]

theorem mem_keys_mergeLevels :
    key ∈ (mergeLevels levels).keys ↔ ∃ level, some level ∈ levels ∧ key ∈ level.keys := by
  simp only [Map.mem_keys, get?_mergeLevels, List.findSome?_isSome_iff, List.mem_reverse]
  constructor
  · rintro ⟨found, hfound, hkey⟩
    cases found with
    | none => cases hkey
    | some level => exact ⟨level, hfound, hkey⟩
  · rintro ⟨level, hlevel, hkey⟩
    exact ⟨some level, hlevel, hkey⟩

/-- One of the levels has the value under the key, and none after it has the key. -/
def LastHas (levels : List (Option Blob)) (key : String) (value : Json) : Prop :=
  ∃ earlier level later, levels = earlier ++ some level :: later ∧
    level.get? key = some value ∧ ∀ other, some other ∈ later → key ∉ other.keys

theorem get?_mergeLevels_eq_some :
    (mergeLevels levels).get? key = some value ↔ LastHas levels key value := by
  rw [get?_mergeLevels, List.findSome?_eq_some_iff]
  constructor
  · rintro ⟨later, found, earlier, hlevels, hfound, hlater⟩
    obtain ⟨level, rfl, hvalue⟩ := Option.bind_eq_some_iff.mp hfound
    refine ⟨earlier.reverse, level, later.reverse, ?_, hvalue, fun other hother => ?_⟩
    · simpa using congrArg List.reverse hlevels
    · simpa [Map.mem_keys] using hlater (some other) (List.mem_reverse.mp hother)
  · rintro ⟨earlier, level, later, rfl, hvalue, hlater⟩
    refine ⟨later.reverse, some level, earlier.reverse, by simp, hvalue, fun other hother => ?_⟩
    cases other with
    | none => rfl
    | some other => simpa [Map.mem_keys] using hlater other (List.mem_reverse.mp hother)

theorem merge_mergeLevels_last (hlast : last ∈ levels.reduceOption.getLast?) :
    merge (mergeLevels levels) last = mergeLevels levels := by
  obtain ⟨uppers, huppers⟩ := List.getLast?_eq_some_iff.mp hlast
  have htop : mergeLevels levels = merge (uppers.foldl merge ∅) last := by
    rw [mergeLevels, huppers, List.foldl_append]
    rfl
  rw [htop, merge_again]

theorem stepwise_merge (levels : List (Option Blob)) :
    stepwise merge levels = mergeLevels levels := by
  rw [mergeLevels, List.reduceOption, List.foldl_filterMap, stepwise]
  congr 1
  funext base level
  cases level <;> rfl

theorem stepwise_absorb (levels : List (Option Blob)) :
    stepwise absorb levels = mergeLevels levels := by
  have habsorb : absorb = merge := funext fun base => funext fun upper => absorb_eq_merge base upper
  rw [habsorb, stepwise_merge]

/-- Levels merged in order come to the same as levels put into an empty blob one after the other,
each merged into what there is or used up in it. The result has the keys of all levels, and under
each key, null or not, the whole value of the last level that has it. It can be made in two parts,
and merging its last level in again changes nothing. -/
theorem merge_algebra (levels : List (Option Blob)) :
    (stepwise merge levels = mergeLevels levels ∧ stepwise absorb levels = mergeLevels levels) ∧
    (∀ key, key ∈ (mergeLevels levels).keys ↔ ∃ level, some level ∈ levels ∧ key ∈ level.keys) ∧
    (∀ key value, (mergeLevels levels).get? key = some value ↔ LastHas levels key value) ∧
    (∀ front back, levels = front ++ back →
      merge (mergeLevels front) (mergeLevels back) = mergeLevels levels ∧
      mergeLevels [some (mergeLevels front), some (mergeLevels back)] = mergeLevels levels) ∧
    ∀ last ∈ levels.reduceOption.getLast?,
      merge (mergeLevels levels) last = mergeLevels levels := by
  refine ⟨⟨stepwise_merge levels, stepwise_absorb levels⟩, fun _ => mem_keys_mergeLevels,
    fun _ _ => get?_mergeLevels_eq_some, ?_, fun _ => merge_mergeLevels_last⟩
  rintro front back rfl
  have hparts : merge (mergeLevels front) (mergeLevels back) = mergeLevels (front ++ back) :=
    mergeLevels_append.symm
  refine ⟨hparts, ?_⟩
  rw [mergeLevels_cons, mergeLevels_singleton]
  exact hparts

def dockLevel : Blob := Map.ofList [
  ("height", .int 30), ("margins", .obj [("top", .int 4), ("bottom", .int 4)])]

def leftLevel : Blob := Map.ofList [("margins", .obj [("top", .int 8)])]

def lowLevel : Blob := Map.ofList [("height", .null)]

theorem merge_algebra_dock :
    let levels := [some dockLevel, none, some leftLevel, some lowLevel, none]
    stepwise absorb levels = mergeLevels levels ∧
    "height" ∈ (mergeLevels levels).keys ∧
    (mergeLevels levels).get? "height" = some .null ∧
    (mergeLevels levels).get? "margins" = some (.obj [("top", .int 8)]) ∧
    merge (mergeLevels [some dockLevel, none]) (mergeLevels [some leftLevel, some lowLevel, none]) =
      mergeLevels levels ∧
    merge (mergeLevels levels) lowLevel = mergeLevels levels := by
  intro levels
  obtain ⟨⟨-, absorbed⟩, keys, values, parts, again⟩ := merge_algebra levels
  refine ⟨absorbed, ?_, ?_, ?_, (parts _ _ rfl).1, again _ rfl⟩
  · exact (keys _).mpr ⟨lowLevel, by simp [levels], by decide⟩
  · exact (values _ _).mpr ⟨[some dockLevel, none, some leftLevel], lowLevel, _, rfl, rfl, by simp⟩
  · refine (values _ _).mpr ⟨[some dockLevel, none], leftLevel, _, rfl, rfl, fun other hother => ?_⟩
    obtain rfl : other = lowLevel := by simpa using hother
    decide

end ShellSettings.Blob
