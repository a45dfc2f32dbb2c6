import ShellSettings.Store.FreshId

/-!
# What a search for an id draws

A search goes through the ids that are next in their order and stops at the first that
is free, so its outcome and the state of the source after it are known from these ids
alone (`IdSource.search_cases`).
-/

namespace ShellSettings

namespace IdSource

variable {free : String → Bool} {attempts : Nat} {ids : IdSource}

def upcoming (ids : IdSource) (n : Nat) : String := ids.id (ids.drawn + n)

def advance (ids : IdSource) (n : Nat) : IdSource := { ids with drawn := ids.drawn + n }

theorem upcoming_advance (n m : Nat) : (ids.advance n).upcoming m = ids.upcoming (n + m) := by
  simp [upcoming, advance, Nat.add_assoc]

theorem advance_advance (n m : Nat) : (ids.advance n).advance m = ids.advance (n + m) := by
  simp [advance, Nat.add_assoc]

theorem search_succ : search free (attempts + 1) ids =
    if free (ids.upcoming 0) then (some (ids.upcoming 0), ids.advance 1)
    else search free attempts (ids.advance 1) := rfl

theorem search_cases (free : String → Bool) (attempts : Nat) (ids : IdSource) :
    (search free attempts ids = (none, ids.advance attempts) ∧
      ∀ n < attempts, free (ids.upcoming n) = false) ∨
    ∃ n < attempts, search free attempts ids = (some (ids.upcoming n), ids.advance (n + 1)) ∧
      free (ids.upcoming n) = true ∧ ∀ m < n, free (ids.upcoming m) = false := by
  induction attempts generalizing ids with
  | zero => exact .inl ⟨rfl, fun n hn => absurd hn (Nat.not_lt_zero n)⟩
  | succ attempts ih =>
    rw [search_succ]
    by_cases hfree : free (ids.upcoming 0) = true
    · refine .inr ⟨0, Nat.succ_pos _, if_pos hfree, hfree, fun m hm => ?_⟩
      exact absurd hm (Nat.not_lt_zero m)
    · have hfirst : free (ids.upcoming 0) = false := Bool.eq_false_iff.mpr hfree
      rw [if_neg hfree]
      rcases ih (ids.advance 1) with ⟨hsearch, htaken⟩ | ⟨n, hn, hsearch, hn', htaken⟩
      · left
        rw [hsearch, advance_advance, Nat.add_comm 1]
        refine ⟨rfl, Nat.forall_lt_succ_left'.mpr ⟨hfirst, fun n hn => ?_⟩⟩
        rw [Nat.add_comm, ← upcoming_advance]
        exact htaken n hn
      · right
        refine ⟨n + 1, by omega, ?_, ?_, Nat.forall_lt_succ_left'.mpr ⟨hfirst, fun m hm => ?_⟩⟩
        · rw [hsearch, upcoming_advance, advance_advance, Nat.add_comm 1, Nat.add_comm 1]
        · rwa [Nat.add_comm, ← upcoming_advance]
        · rw [Nat.add_comm, ← upcoming_advance]
          exact htaken m hm

theorem search_eq_none :
    (search free attempts ids).1 = none ↔ ∀ n < attempts, free (ids.upcoming n) = false := by
  rcases search_cases free attempts ids with ⟨hsearch, htaken⟩ | ⟨n, hn, hsearch, hfree, -⟩
  · rw [hsearch]
    exact iff_of_true rfl htaken
  · rw [hsearch]
    refine iff_of_false nofun fun htaken => ?_
    rw [htaken n hn] at hfree
    cases hfree

end IdSource

end ShellSettings
