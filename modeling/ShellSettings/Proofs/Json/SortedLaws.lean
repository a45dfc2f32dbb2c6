import ShellSettings.Json.Basic
import ShellSettings.Proofs.MapLaws

/-!
# Sorted values

Sorting a value twice is sorting it once, so a value is sorted if it is its own
sorted form. A rearrangement of a value may put the members of an object in
another order, as writing it in the order of its fields or as a value does; it
keeps everything else.
-/

namespace ShellSettings.Json

theorem sortedItems_eq_map (xs : List Json) : sortedItems xs = xs.map sorted := by
  induction xs with
  | nil => rfl
  | cons x xs ih => simp [sortedItems, ih]

theorem sortedMembers_eq_map (ms : List (String × Json)) :
    sortedMembers ms = ms.map fun m => (m.1, m.2.sorted) := by
  induction ms with
  | nil => rfl
  | cons m ms ih => simp [sortedMembers, ih]

mutual
theorem sorted_sorted : (v : Json) → v.sorted.sorted = v.sorted
  | .null => rfl
  | .bool _ => rfl
  | .num _ => rfl
  | .str _ => rfl
  | .arr xs => by
    have h := sorted_sorted_items xs
    simp only [sorted, sortedItems_eq_map, List.map_map, Json.arr.injEq]
    exact List.map_congr_left fun x hx => h x hx
  | .obj ms => by
    have h := sorted_sorted_members ms
    simp only [sorted, sortedMembers_eq_map, Json.obj.injEq]
    have hentries : (Map.ofList (ms.map fun m => (m.1, m.2.sorted))).entries.map
        (fun m => (m.1, m.2.sorted)) =
          (Map.ofList (ms.map fun m => (m.1, m.2.sorted))).entries := by
      refine (List.map_congr_left fun e he => ?_).trans (List.map_id _)
      obtain ⟨m, hm, rfl⟩ := List.mem_map.mp (Map.mem_of_mem_ofList he)
      simp [h m hm]
    rw [hentries, Map.ofList_entries]
theorem sorted_sorted_items : (xs : List Json) → ∀ x ∈ xs, x.sorted.sorted = x.sorted
  | [], _, hx => absurd hx List.not_mem_nil
  | y :: ys, x, hx => by
    rcases List.mem_cons.mp hx with h | hx
    · exact h ▸ sorted_sorted y
    · exact sorted_sorted_items ys x hx
theorem sorted_sorted_members :
    (ms : List (String × Json)) → ∀ m ∈ ms, m.2.sorted.sorted = m.2.sorted
  | [], _, hm => absurd hm List.not_mem_nil
  | (_, v) :: ns, m, hm => by
    rcases List.mem_cons.mp hm with h | hm
    · exact h ▸ sorted_sorted v
    · exact sorted_sorted_members ns m hm
end

def IsSorted (v : Json) : Prop := v.sorted = v

theorem IsSorted.eq {v : Json} (h : v.IsSorted) : v.sorted = v := h

/-- Values that differ at most in the order of the members of their objects. -/
structure Rearranges (g : Json → Json) : Prop where
  null : g .null = .null
  bool : ∀ b, g (.bool b) = .bool b
  str : ∀ s, g (.str s) = .str s
  arr : ∀ xs, g (.arr xs) = .arr (xs.map g)
  obj : ∀ ms, (ms.map (·.1)).Nodup → ∃ ns, g (.obj ms) = .obj ns ∧ (ns.map (·.1)).Nodup ∧
    ∀ e, e ∈ ns ↔ ∃ m ∈ ms, e = (m.1, g m.2)
  sorted : ∀ v, (g v).sorted = v.sorted

theorem Rearranges.num {g : Json → Json} (h : Rearranges g) (n : Number) :
    g (.num n) = .num n := by
  have hsorted := h.sorted (.num n)
  cases hv : g (.num n) <;> simp_all [Json.sorted]

theorem rearranges_id : Rearranges id where
  null := rfl
  bool _ := rfl
  str _ := rfl
  arr xs := by simp
  obj ms h := ⟨ms, rfl, h, fun e => by simp⟩
  sorted _ := rfl

theorem rearranges_sorted : Rearranges Json.sorted where
  null := rfl
  bool _ := rfl
  str _ := rfl
  arr xs := by simp [Json.sorted, sortedItems_eq_map]
  obj ms h := by
    have hkeys : ((sortedMembers ms).map (·.1)).Nodup := by
      simpa [sortedMembers_eq_map, Function.comp_def] using h
    refine ⟨_, rfl, Map.nodup_keys _, fun e => ?_⟩
    rw [Map.mem_entries_ofList hkeys, sortedMembers_eq_map]
    simp [eq_comm]
  sorted := sorted_sorted

end ShellSettings.Json
