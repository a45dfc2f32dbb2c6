/-!
# Finite maps with text keys

A `Map` lists its entries in increasing key order, each key once, so two maps
with the same look-ups are the same map (`Map.ext_get?`). Every operation keeps
that order; the order is the one in which entries are written out.
-/

namespace ShellSettings

/-- A finite map from text keys, in increasing key order without repetition. -/
structure Map (α : Type) where
  entries : List (String × α)
  sorted : entries.Pairwise (fun a b => a.1 < b.1)

namespace Map

variable {α β : Type}

protected def empty : Map α := ⟨[], .nil⟩

instance : EmptyCollection (Map α) := ⟨Map.empty⟩
instance : Inhabited (Map α) := ⟨Map.empty⟩

instance [DecidableEq α] : DecidableEq (Map α) := fun m n =>
  if h : m.entries = n.entries then isTrue (by cases m; cases n; cases h; rfl)
  else isFalse (fun e => h (congrArg entries e))

def get? (m : Map α) (key : String) : Option α := m.entries.lookup key

def contains (m : Map α) (key : String) : Bool := (m.get? key).isSome

def keys (m : Map α) : List String := m.entries.map (·.1)

def values (m : Map α) : List α := m.entries.map (·.2)

def isEmpty (m : Map α) : Bool := m.entries.isEmpty

def size (m : Map α) : Nat := m.entries.length

def insertEntry (key : String) (value : α) : List (String × α) → List (String × α)
  | [] => [(key, value)]
  | (k, v) :: rest =>
    if key < k then (key, value) :: (k, v) :: rest
    else if key = k then (key, value) :: rest
    else (k, v) :: insertEntry key value rest

theorem mem_insertEntry {key : String} {value : α} {l : List (String × α)} {e : String × α}
    (h : e ∈ insertEntry key value l) : e = (key, value) ∨ e ∈ l := by
  induction l with
  | nil => simpa [insertEntry] using h
  | cons head rest ih =>
    obtain ⟨k, v⟩ := head
    unfold insertEntry at h
    split at h
    · simpa using h
    · split at h
      · rcases List.mem_cons.mp h with h | h
        · exact .inl h
        · exact .inr (List.mem_cons_of_mem _ h)
      · rcases List.mem_cons.mp h with h | h
        · exact .inr (h ▸ List.mem_cons_self)
        · rcases ih h with h | h
          · exact .inl h
          · exact .inr (List.mem_cons_of_mem _ h)

theorem sorted_insertEntry (key : String) (value : α) {l : List (String × α)}
    (h : l.Pairwise (fun a b => a.1 < b.1)) :
    (insertEntry key value l).Pairwise (fun a b => a.1 < b.1) := by
  induction l with
  | nil => simp [insertEntry]
  | cons head rest ih =>
    obtain ⟨k, v⟩ := head
    obtain ⟨hhead, hrest⟩ := List.pairwise_cons.mp h
    unfold insertEntry
    split
    · rename_i hlt
      refine List.pairwise_cons.mpr ⟨?_, h⟩
      intro e he
      rcases List.mem_cons.mp he with he | he
      · exact he ▸ hlt
      · exact String.lt_trans hlt (hhead e he)
    · split
      · rename_i heq
        exact List.pairwise_cons.mpr ⟨fun e he => heq ▸ hhead e he, hrest⟩
      · rename_i hlt hne
        refine List.pairwise_cons.mpr ⟨?_, ih hrest⟩
        intro e he
        rcases mem_insertEntry he with he | he
        · have hgt : k < key := by
            have := String.le_antisymm (a := key) (b := k)
            grind
          exact he ▸ hgt
        · exact hhead e he

def insert (m : Map α) (key : String) (value : α) : Map α :=
  ⟨insertEntry key value m.entries, sorted_insertEntry key value m.sorted⟩

def erase (m : Map α) (key : String) : Map α :=
  ⟨m.entries.filter (fun e => e.1 != key), m.sorted.sublist List.filter_sublist⟩

/-- The entries inserted one after the other: of a repeated key the last value stays. -/
def insertAll (m : Map α) (entries : List (String × α)) : Map α :=
  entries.foldl (fun acc e => acc.insert e.1 e.2) m

def ofList (entries : List (String × α)) : Map α := insertAll ∅ entries

def map (f : String → α → β) (m : Map α) : Map β :=
  ⟨m.entries.map (fun e => (e.1, f e.1 e.2)), List.pairwise_map.mpr m.sorted⟩

/-- Changes the value under `key`, starting from `start` where there is none. -/
def change (m : Map α) (key : String) (start : α) (f : α → α) : Map α :=
  m.insert key (f ((m.get? key).getD start))

-- ---------------------------------------------------------------------------
-- Look-ups
-- ---------------------------------------------------------------------------

theorem lookup_cons (key k : String) (v : α) (rest : List (String × α)) :
    ((k, v) :: rest).lookup key = if key = k then some v else rest.lookup key := by
  by_cases h : key = k <;> simp [List.lookup_cons, h, beq_eq_false_iff_ne.mpr]

@[simp] theorem get?_empty (key : String) : (∅ : Map α).get? key = none := rfl

theorem lookup_insertEntry (key key' : String) (value : α) (l : List (String × α)) :
    (insertEntry key value l).lookup key' = if key' = key then some value else l.lookup key' := by
  induction l with
  | nil => simp [insertEntry, lookup_cons]
  | cons head rest ih =>
    obtain ⟨k, v⟩ := head
    unfold insertEntry
    split
    · simp [lookup_cons]
    · split
      · rename_i heq
        subst heq
        by_cases h : key' = key <;> simp [lookup_cons, h]
      · rename_i hne
        by_cases h : key' = k
        · subst h
          simp [Ne.symm hne]
        · simp [lookup_cons, h, ih]

@[simp] theorem get?_insert (m : Map α) (key key' : String) (value : α) :
    (m.insert key value).get? key' = if key' = key then some value else m.get? key' :=
  lookup_insertEntry key key' value m.entries

theorem lookup_filter_ne (key key' : String) (l : List (String × α)) :
    (l.filter (fun e => e.1 != key)).lookup key' = if key' = key then none else l.lookup key' := by
  induction l with
  | nil => simp
  | cons head rest ih =>
    obtain ⟨k, v⟩ := head
    by_cases hk : k = key
    · subst hk
      rw [List.filter_cons_of_neg (by simp), ih, lookup_cons]
      split <;> rfl
    · rw [List.filter_cons_of_pos (by simpa using hk), lookup_cons, ih, lookup_cons]
      split <;> simp_all

@[simp] theorem get?_erase (m : Map α) (key key' : String) :
    (m.erase key).get? key' = if key' = key then none else m.get? key' :=
  lookup_filter_ne key key' m.entries

theorem lookup_map_snd (f : String → α → β) (key : String) (l : List (String × α)) :
    (l.map (fun e => (e.1, f e.1 e.2))).lookup key = (l.lookup key).map (f key) := by
  induction l with
  | nil => rfl
  | cons head rest ih =>
    obtain ⟨k, v⟩ := head
    by_cases h : key = k <;> simp_all [lookup_cons]

@[simp] theorem get?_map (f : String → α → β) (m : Map α) (key : String) :
    (m.map f).get? key = (m.get? key).map (f key) :=
  lookup_map_snd f key m.entries

theorem lookup_eq_none_of_lt {key : String} {l : List (String × α)}
    (h : ∀ e ∈ l, key < e.1) : l.lookup key = none := by
  induction l with
  | nil => rfl
  | cons head rest ih =>
    obtain ⟨k, v⟩ := head
    have hne : key ≠ k := fun heq =>
      String.lt_irrefl key (by simpa [← heq] using h (k, v) List.mem_cons_self)
    simp [lookup_cons, hne, ih (fun e he => h e (List.mem_cons_of_mem _ he))]

/-- The first key of a sorted list is not above the first key of a list with the same look-ups. -/
theorem not_lt_of_lookup_eq {k k' : String} {v v' : α} {rest rest' : List (String × α)}
    (hk : ∀ e ∈ rest, k < e.1)
    (h : ((k, v) :: rest).lookup k' = ((k', v') :: rest').lookup k') : ¬ k' < k := by
  intro hlt
  rw [lookup_eq_none_of_lt (l := (k, v) :: rest), lookup_cons] at h
  · simp at h
  · intro e he
    rcases List.mem_cons.mp he with he | he
    · exact he ▸ hlt
    · exact String.lt_trans hlt (hk e he)

theorem entries_ext {l r : List (String × α)} (hl : l.Pairwise (fun a b => a.1 < b.1))
    (hr : r.Pairwise (fun a b => a.1 < b.1)) (h : ∀ key, l.lookup key = r.lookup key) : l = r := by
  induction l generalizing r with
  | nil =>
    cases r with
    | nil => rfl
    | cons head rest =>
      obtain ⟨k, v⟩ := head
      simpa [lookup_cons] using h k
  | cons head rest ih =>
    obtain ⟨k, v⟩ := head
    obtain ⟨hk, hrest⟩ := List.pairwise_cons.mp hl
    cases r with
    | nil => simpa [lookup_cons] using h k
    | cons head' rest' =>
      obtain ⟨k', v'⟩ := head'
      obtain ⟨hk', hrest'⟩ := List.pairwise_cons.mp hr
      have hkey : k = k' := String.le_antisymm
        (String.not_lt.mp (not_lt_of_lookup_eq hk (h k')))
        (String.not_lt.mp (not_lt_of_lookup_eq hk' (h k).symm))
      subst hkey
      have hv : v = v' := by simpa [lookup_cons] using h k
      subst hv
      congr 1
      refine ih hrest hrest' (fun key => ?_)
      by_cases hkk : key = k
      · subst hkk
        rw [lookup_eq_none_of_lt hk, lookup_eq_none_of_lt hk']
      · simpa [lookup_cons, hkk] using h key

theorem ext_get? {m n : Map α} (h : ∀ key, m.get? key = n.get? key) : m = n := by
  obtain ⟨l, hl⟩ := m
  obtain ⟨r, hr⟩ := n
  have : l = r := entries_ext hl hr h
  subst this
  rfl

end Map

end ShellSettings
