import ShellSettings.Proofs.Json.SortedLaws
import Mathlib.Data.List.Forall2
import Mathlib.Data.Option.Basic

/-!
# Values that are the same

Sameness is equality but for the sign of zero. Every value is the same as itself,
what stands under a key in values that are the same is the same in both
(`Json.rel_get?`), and sorting keeps them the same (`Json.same_sorted`).
-/

namespace ShellSettings

theorem Double.same_self (a : Double) : a.same a = true := by simp [Double.same]

theorem Number.same_self (n : Number) : n.same n = true := by
  cases n with
  | int i => simp [Number.same]
  | double a => exact a.same_self

namespace Json

mutual
theorem same_self : ∀ v : Json, v.same v = true
  | .null => rfl
  | .bool b => by simp [same]
  | .num n => n.same_self
  | .str s => by simp [same]
  | .arr xs => sameItems_self xs
  | .obj ms => sameMembers_self ms
theorem sameItems_self : ∀ xs : List Json, sameItems xs xs = true
  | [] => rfl
  | x :: xs => by simp [sameItems, same_self x, sameItems_self xs]
theorem sameMembers_self : ∀ ms : List (String × Json), sameMembers ms ms = true
  | [] => rfl
  | (k, v) :: ms => by simp [sameMembers, same_self v, sameMembers_self ms]
end

def SameMember (m n : String × Json) : Prop := m.1 = n.1 ∧ m.2.same n.2 = true

theorem sameMembers_iff {ms ns : List (String × Json)} :
    sameMembers ms ns = true ↔ List.Forall₂ SameMember ms ns := by
  induction ms generalizing ns with
  | nil => cases ns <;> simp [sameMembers]
  | cons m ms ih =>
    cases ns with
    | nil => simp [sameMembers]
    | cons n ns => simp [sameMembers, ih, SameMember]

/-- Both are there and the same, or neither is there. -/
abbrev SameIfAny : Option Json → Option Json → Prop := Option.Rel fun v w => v.same w = true

variable {v w : Json} {key : String}

theorem rel_lookup {ms ns : List (String × Json)} (h : List.Forall₂ SameMember ms ns) :
    SameIfAny (ms.lookup key) (ns.lookup key) := by
  induction h with
  | nil => exact .none
  | @cons m n ms ns hmn _ ih =>
    obtain ⟨k, v⟩ := m
    obtain ⟨l, w⟩ := n
    obtain ⟨rfl, hvw⟩ : k = l ∧ v.same w = true := hmn
    rw [Map.lookup_cons, Map.lookup_cons]
    split
    · exact .some hvw
    · exact ih

theorem rel_get? (h : v.same w = true) : SameIfAny (v.get? key) (w.get? key) := by
  cases v with
  | obj ms =>
    cases w with
    | obj ns => exact rel_lookup (sameMembers_iff.mp h)
    | null | bool | num | str | arr => simp [same] at h
  | null | bool | num | str | arr =>
    cases w with
    | obj ns => simp [same] at h
    | null | bool | num | str | arr => exact .none

theorem sameMember_insertEntry {ms ns : List (String × Json)} (hvw : v.same w = true)
    (h : List.Forall₂ SameMember ms ns) :
    List.Forall₂ SameMember (Map.insertEntry key v ms) (Map.insertEntry key w ns) := by
  induction h with
  | nil => exact .cons ⟨rfl, hvw⟩ .nil
  | @cons m n ms ns hmn hrest ih =>
    obtain ⟨k, x⟩ := m
    obtain ⟨l, y⟩ := n
    obtain ⟨rfl, hxy⟩ : k = l ∧ x.same y = true := hmn
    unfold Map.insertEntry
    split
    · exact .cons ⟨rfl, hvw⟩ (.cons ⟨rfl, hxy⟩ hrest)
    · split
      · exact .cons ⟨rfl, hvw⟩ hrest
      · exact .cons ⟨rfl, hxy⟩ ih

theorem sameMember_insertAll {m n : Blob} {ms ns : List (String × Json)}
    (hm : List.Forall₂ SameMember m.entries n.entries) (h : List.Forall₂ SameMember ms ns) :
    List.Forall₂ SameMember (m.insertAll ms).entries (n.insertAll ns).entries := by
  induction h generalizing m n with
  | nil => exact hm
  | @cons e f ms ns hef _ ih =>
    obtain ⟨k, v⟩ := e
    obtain ⟨l, w⟩ := f
    obtain ⟨rfl, hvw⟩ : k = l ∧ v.same w = true := hef
    exact ih (m := m.insert k v) (n := n.insert k w) (sameMember_insertEntry hvw hm)

mutual
theorem same_sorted : ∀ {v w : Json}, v.same w = true → v.sorted.same w.sorted = true
  | .arr xs, .arr ys, h => @same_sortedItems xs ys h
  | .obj ms, .obj ns, h => by
    have hsorted := sameMember_sortedMembers (sameMembers_iff.mp h)
    exact sameMembers_iff.mpr (sameMember_insertAll .nil hsorted)
  | .null, .null, _ => rfl
  | .bool _, .bool _, h => h
  | .num _, .num _, h => h
  | .str _, .str _, h => h
theorem same_sortedItems : ∀ {xs ys : List Json}, sameItems xs ys = true →
    sameItems (sortedItems xs) (sortedItems ys) = true
  | [], [], _ => rfl
  | x :: xs, y :: ys, h => by
    obtain ⟨hxy, hrest⟩ := (Bool.and_eq_true _ _).mp h
    simp [sortedItems, sameItems, same_sorted hxy, same_sortedItems hrest]
theorem sameMember_sortedMembers : ∀ {ms ns : List (String × Json)},
    List.Forall₂ SameMember ms ns → List.Forall₂ SameMember (sortedMembers ms) (sortedMembers ns)
  | [], [], _ => .nil
  | (_, _) :: _, (_, _) :: _, .cons ⟨hkey, hxy⟩ hrest =>
    .cons ⟨hkey, same_sorted hxy⟩ (sameMember_sortedMembers hrest)
end

end Json

end ShellSettings
