import ShellSettings.Map

/-!
# Laws of finite maps

Entries and look-ups of a map say the same (`Map.mem_entries`), so a map can be
built from its entries in any order (`Map.ofList_eq`).
-/

namespace ShellSettings.Map

variable {α β : Type} {m : Map α} {key : String} {value : α}

theorem ext_entries {m n : Map α} (h : m.entries = n.entries) : m = n := by
  cases m
  cases n
  cases h
  rfl

theorem nodup_keys (m : Map α) : (m.entries.map (·.1)).Nodup :=
  List.pairwise_map.mpr (m.sorted.imp fun h => String.ne_of_lt h)

theorem mem_of_lookup_eq_some {l : List (String × α)} (h : l.lookup key = some value) :
    (key, value) ∈ l := by
  obtain ⟨l₁, l₂, rfl, -⟩ := List.lookup_eq_some_iff.mp h
  simp

theorem lookup_eq_some {l : List (String × α)} (h : (l.map (·.1)).Nodup) :
    l.lookup key = some value ↔ (key, value) ∈ l := by
  induction l with
  | nil => simp
  | cons head rest ih =>
    obtain ⟨k, v⟩ := head
    obtain ⟨hk, hrest⟩ := List.nodup_cons.mp h
    rw [lookup_cons, List.mem_cons, ← ih hrest]
    by_cases hkey : key = k
    · subst hkey
      have hnone : rest.lookup key ≠ some value := fun hs =>
        hk (List.mem_map.mpr ⟨_, (ih hrest).mp hs, rfl⟩)
      simp [hnone, eq_comm]
    · simp [hkey]

theorem mem_entries : (key, value) ∈ m.entries ↔ m.get? key = some value :=
  (lookup_eq_some m.nodup_keys).symm

theorem mem_keys : key ∈ m.keys ↔ (m.get? key).isSome := by
  rw [keys, List.mem_map, Option.isSome_iff_exists]
  constructor
  · rintro ⟨e, he, rfl⟩
    exact ⟨e.2, mem_entries.mp he⟩
  · rintro ⟨value, hvalue⟩
    exact ⟨(key, value), mem_entries.mpr hvalue, rfl⟩

theorem isEmpty_iff : m.isEmpty = true ↔ ∀ key, m.get? key = none := by
  refine ⟨fun h key => ?_, fun h => List.isEmpty_iff.mpr ?_⟩
  · rw [get?, List.isEmpty_iff.mp h]
    rfl
  · refine List.eq_nil_iff_forall_not_mem.mpr fun e he => ?_
    have hsome : m.get? e.1 = some e.2 := mem_entries.mp he
    rw [h] at hsome
    cases hsome

def All (P : α → Prop) (m : Map α) : Prop := ∀ e ∈ m.entries, P e.2

theorem all_empty {P : α → Prop} : (∅ : Map α).All P := by
  intro e he
  cases he

theorem All.insert {P : α → Prop} (h : m.All P) (hv : P value) : (m.insert key value).All P := by
  intro e he
  rcases mem_insertEntry he with rfl | he
  · exact hv
  · exact h e he

theorem All.erase {P : α → Prop} (h : m.All P) : (m.erase key).All P :=
  fun e he => h e (List.mem_filter.mp he).1

theorem All.map {P : α → Prop} {Q : β → Prop} {f : String → α → β} (h : m.All P)
    (hf : ∀ k v, P v → Q (f k v)) : (m.map f).All Q := by
  intro e he
  obtain ⟨e', he', rfl⟩ := List.mem_map.mp he
  exact hf _ _ (h e' he')

theorem All.get? {P : α → Prop} (h : m.All P) (hv : m.get? key = some value) : P value :=
  h _ (mem_entries.mpr hv)

theorem map_eq_self {f : String → α → α} (h : ∀ e ∈ m.entries, f e.1 e.2 = e.2) :
    m.map f = m :=
  ext_entries ((List.map_congr_left fun e he => by rw [h e he]; rfl).trans (List.map_id _))

theorem mem_of_mem_insertAll {l : List (String × α)} {e : String × α}
    (h : e ∈ (m.insertAll l).entries) : e ∈ l ∨ e ∈ m.entries := by
  induction l generalizing m with
  | nil => exact .inr h
  | cons head rest ih =>
    rcases ih (m := m.insert head.1 head.2) h with h | h
    · exact .inl (List.mem_cons_of_mem _ h)
    · rcases mem_insertEntry h with h | h
      · exact .inl (h ▸ List.mem_cons_self)
      · exact .inr h

theorem mem_of_mem_ofList {l : List (String × α)} {e : String × α}
    (h : e ∈ (ofList l).entries) : e ∈ l :=
  (mem_of_mem_insertAll h).resolve_right List.not_mem_nil

theorem isSome_get?_insertAll {l : List (String × α)}
    (h : (m.get? key).isSome ∨ key ∈ l.map (·.1)) : ((m.insertAll l).get? key).isSome := by
  induction l generalizing m with
  | nil => simpa [insertAll] using h
  | cons head rest ih =>
    refine ih (m := m.insert head.1 head.2) ?_
    rw [List.map_cons, List.mem_cons] at h
    rw [get?_insert]
    rcases h with h | h | h
    · exact .inl (by split <;> simp_all)
    · exact .inl (by simp [h])
    · exact .inr h

theorem contains_ofList {l : List (String × α)} :
    (ofList l).contains key = true ↔ key ∈ l.map (·.1) := by
  constructor
  · intro h
    obtain ⟨value, hvalue⟩ := Option.isSome_iff_exists.mp h
    exact List.mem_map_of_mem (mem_of_mem_ofList (mem_entries.mpr hvalue))
  · exact fun h => isSome_get?_insertAll (.inr h)

theorem ofList_eq {l : List (String × α)} (h : ∀ e, e ∈ l ↔ e ∈ m.entries) : ofList l = m := by
  refine ext_get? (fun key => Option.ext fun value => ?_)
  rw [← mem_entries]
  constructor
  · intro hs
    exact mem_entries.mp ((h _).mp (mem_of_mem_ofList hs))
  · intro hs
    have hl := (h _).mpr (mem_entries.mpr hs)
    obtain ⟨value', hv⟩ := Option.isSome_iff_exists.mp
      (contains_ofList.mpr (List.mem_map_of_mem hl))
    have := mem_entries.mp ((h _).mp (mem_of_mem_ofList (mem_entries.mpr hv)))
    rw [hs] at this
    rw [mem_entries, this]
    exact hv

theorem ofList_entries (m : Map α) : ofList m.entries = m := ofList_eq fun _ => Iff.rfl

theorem map_insert (f : α → β) (m : Map α) (key : String) (value : α) :
    (m.insert key value).map (fun _ v => f v) = (m.map fun _ v => f v).insert key (f value) := by
  refine ext_get? fun k => ?_
  simp only [get?_map, get?_insert]
  split <;> rfl

theorem map_insertAll (f : α → β) (m : Map α) (l : List (String × α)) :
    (m.insertAll l).map (fun _ v => f v) =
      (m.map fun _ v => f v).insertAll (l.map fun e => (e.1, f e.2)) := by
  induction l generalizing m with
  | nil => rfl
  | cons head rest ih =>
    change ((m.insert head.1 head.2).insertAll rest).map _ = _
    rw [ih, map_insert]
    rfl

theorem ofList_map (f : α → β) (l : List (String × α)) :
    ofList (l.map fun e => (e.1, f e.2)) = (ofList l).map fun _ v => f v :=
  (map_insertAll f ∅ l).symm

theorem get?_insertAll {l : List (String × α)} (h : (l.map (·.1)).Nodup) :
    (m.insertAll l).get? key = (l.lookup key).or (m.get? key) := by
  induction l generalizing m with
  | nil => rfl
  | cons head rest ih =>
    obtain ⟨k, v⟩ := head
    obtain ⟨hk, hrest⟩ := List.nodup_cons.mp h
    have hnone : rest.lookup k = none := by
      rw [List.lookup_eq_none_iff]
      intro e he
      simpa using fun heq => hk (List.mem_map.mpr ⟨e, he, heq.symm⟩)
    change ((m.insert k v).insertAll rest).get? key = _
    rw [ih hrest, lookup_cons, get?_insert]
    by_cases hkey : key = k
    · simp [hkey, hnone]
    · simp [hkey]

theorem mem_entries_ofList {l : List (String × α)} (h : (l.map (·.1)).Nodup) {e : String × α} :
    e ∈ (ofList l).entries ↔ e ∈ l := by
  rw [mem_entries, ofList, get?_insertAll h, get?_empty, Option.or_none, lookup_eq_some h]

end ShellSettings.Map
