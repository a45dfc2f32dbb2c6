import ShellSettings.Proofs.Json.RecordLaws
import Mathlib.Data.Option.Basic

/-!
# Looking members up in what was read

As a value an object has of a repeated key the last member. That is the one
that ends up in a map that is read, or among the unknown members of a record.
A field is read from the one member that names it.
-/

namespace ShellSettings

namespace Map

variable {α : Type} {key : String} {p : String → Bool}

theorem get?_insertAll_filter (hp : p key = true) {m n : Map α} (h : m.get? key = n.get? key)
    (l : List (String × α)) :
    (m.insertAll (l.filter fun e => p e.1)).get? key = (n.insertAll l).get? key := by
  induction l generalizing m n with
  | nil => exact h
  | cons e rest ih =>
    by_cases he : p e.1 = true
    · simp only [List.filter_cons, he, if_true]
      refine ih (m := m.insert e.1 e.2) (n := n.insert e.1 e.2) ?_
      simp only [get?_insert, h]
    · simp only [List.filter_cons, he, if_false, Bool.false_eq_true]
      refine ih (m := m) (n := n.insert e.1 e.2) ?_
      have hne : key ≠ e.1 := fun heq => he (heq ▸ hp)
      simp only [get?_insert, if_neg hne, h]

theorem get?_ofList_filter (hp : p key = true) (l : List (String × α)) :
    (ofList (l.filter fun e => p e.1)).get? key = (ofList l).get? key :=
  get?_insertAll_filter hp rfl l

end Map

namespace Json

variable {key : String} {v x : Json} {members : List (String × Json)}

def item? (index : Nat) : Json → Option Json
  | .arr items => items[index]?
  | _ => none

theorem get?_sorted_obj : (Json.obj members).sorted.get? key =
    ((Map.ofList members).get? key).map sorted := by
  have h : (Json.obj members).sorted.get? key = (Map.ofList (sortedMembers members)).get? key := rfl
  rw [h, sortedMembers_eq_map, Map.ofList_map, Map.get?_map]

theorem get?_sorted_of_mem (hkeys : (members.map (·.1)).Nodup) (h : (key, x) ∈ members) :
    (Json.obj members).sorted.get? key = some x.sorted := by
  rw [get?_sorted_obj, Map.mem_entries.mp ((Map.mem_entries_ofList hkeys).mpr h)]
  rfl

def last? (key : String) : Json → Option Json
  | .obj members => (Map.ofList members).get? key
  | _ => none

theorem get?_sorted : v.sorted.get? key = (v.last? key).map sorted := by
  cases v with
  | obj members => exact get?_sorted_obj
  | null | bool | num | str | arr => rfl

theorem exists_of_last? (h : v.last? key = some x) :
    ∃ members, v = .obj members ∧ (key, x) ∈ members := by
  cases v with
  | obj members => exact ⟨members, rfl, Map.mem_of_mem_ofList (Map.mem_entries.mpr h)⟩
  | null | bool | num | str | arr => cases h

-- ---------------------------------------------------------------------------
-- Sorted values
-- ---------------------------------------------------------------------------

theorem IsSorted.exists_entries (h : (obj members).IsSorted) : ∃ m : Blob, members = m.entries :=
  ⟨_, (Json.obj.inj h).symm⟩

theorem IsSorted.last?_eq (h : v.IsSorted) : v.last? key = v.get? key := by
  cases v with
  | obj members =>
    obtain ⟨m, rfl⟩ := h.exists_entries
    exact congrArg (Map.get? · key) (Map.ofList_entries m)
  | null | bool | num | str | arr => rfl

theorem IsSorted.get? (h : v.IsSorted) (hx : v.get? key = some x) : x.IsSorted := by
  rw [← h.eq, get?_sorted] at hx
  obtain ⟨x₀, -, rfl⟩ := Option.map_eq_some_iff.mp hx
  exact sorted_sorted x₀

end Json

-- ---------------------------------------------------------------------------
-- Maps and lists
-- ---------------------------------------------------------------------------

namespace Read

variable {α : Type} {read : Json → Read α} {v x : Json} {key : String}

theorem exists_pairs_of_mapM {τ : Type} {f : τ → Read α} {items : List τ} {xs : List α}
    (h : items.mapM f = .ok xs) : ∃ pairs : List (τ × α), items = pairs.map (·.1) ∧
      xs = pairs.map (·.2) ∧ ∀ p ∈ pairs, f p.1 = .ok p.2 := by
  induction items generalizing xs with
  | nil =>
    cases h
    exact ⟨[], rfl, rfl, nofun⟩
  | cons i items ih =>
    rw [List.mapM_cons] at h
    obtain ⟨a, hi, h⟩ := bind_eq_ok h
    obtain ⟨rest, hrest, h⟩ := bind_eq_ok h
    cases h
    obtain ⟨pairs, rfl, rfl, hpairs⟩ := ih hrest
    exact ⟨(i, a) :: pairs, rfl, rfl, List.forall_mem_cons.mpr ⟨hi, hpairs⟩⟩

theorem rel_of_map {m : Map α} (h : map read v = .ok m) (key : String) :
    Option.Rel (fun x a => read x = .ok a) (v.last? key) (m.get? key) := by
  cases v with
  | obj members =>
    obtain ⟨ms, hms, h⟩ := bind_eq_ok h
    obtain ⟨-, -, h⟩ := bind_eq_ok h
    cases h
    obtain ⟨pairs, rfl, rfl, hpairs⟩ := exists_pairs_of_mapM hms
    have hentry : ∀ p ∈ pairs, read p.1.2 = .ok p.2.2 ∧ p.2 = (p.1.1, p.2.2) := by
      intro p hp
      obtain ⟨a, ha, hpair⟩ := bind_eq_ok (hpairs p hp)
      rw [← Except.ok.inj hpair]
      exact ⟨ha, rfl⟩
    let both := pairs.map fun p => (p.1.1, p.1.2, p.2.2)
    have hleft : pairs.map (·.1) = both.map fun e => (e.1, e.2.1) := by simp [both]
    have hright : pairs.map (·.2) = both.map fun e => (e.1, e.2.2) := by
      simpa [both] using fun p hp => (hentry p hp).2
    rw [Json.last?, hleft, hright, Map.ofList_map (Prod.fst : Json × α → Json) both,
      Map.ofList_map (Prod.snd : Json × α → α) both, Map.get?_map, Map.get?_map]
    cases hboth : (Map.ofList both).get? key with
    | none => exact .none
    | some e =>
      obtain ⟨p, hp, heq⟩ := List.mem_map.mp (Map.mem_of_mem_ofList (Map.mem_entries.mpr hboth))
      cases heq
      exact .some (hentry p hp).1
  | null | bool | num | str | arr => cases h

theorem get?_of_map {m : Map α} (h : map read v = .ok m) (hx : v.sorted.get? key = some x) :
    ∃ x₀ a, x₀.sorted = x ∧ read x₀ = .ok a ∧ m.get? key = some a := by
  rw [Json.get?_sorted] at hx
  obtain ⟨x₀, hx₀, rfl⟩ := Option.map_eq_some_iff.mp hx
  have hrel := rel_of_map h key
  rw [hx₀] at hrel
  generalize m.get? key = got at hrel
  cases hrel with
  | some hread => exact ⟨x₀, _, rfl, hread, rfl⟩

theorem item?_of_list {xs : List α} {index : Nat} (h : list read v = .ok xs)
    (hx : v.sorted.item? index = some x) :
    ∃ x₀ a, x₀.sorted = x ∧ read x₀ = .ok a ∧ xs[index]? = some a := by
  cases v with
  | arr items =>
    obtain ⟨ys, hys, h⟩ := bind_eq_ok h
    obtain ⟨-, -, h⟩ := bind_eq_ok h
    cases h
    obtain ⟨pairs, rfl, rfl, hpairs⟩ := exists_pairs_of_mapM hys
    simp only [Json.sorted, Json.sortedItems_eq_map, Json.item?, List.getElem?_map,
      Option.map_eq_some_iff, Option.map_map] at hx
    obtain ⟨p, hp, rfl⟩ := hx
    refine ⟨p.1, p.2, rfl, hpairs p (List.mem_of_getElem? hp), by simp [hp]⟩
  | null | bool | num | str | obj => cases hx

end Read

-- ---------------------------------------------------------------------------
-- Records
-- ---------------------------------------------------------------------------

namespace Record

variable {μ β : Type} {r : Record Json μ} {members : List (String × Json)} {seen : List String}
  {ms : List μ} {key field : String} {f : μ → Option β} {v x : Json}

theorem eq_of_field? (haliases : r.aliases = []) (h : r.field? key = some field) :
    field = key := by
  unfold field? at h
  split at h
  · exact (Option.some.inj h).symm
  · rw [haliases] at h
    cases h

theorem field?_ne_of_seen (h : r.readMembers seen members = .ok ms) (hseen : field ∈ seen) :
    ∀ e ∈ members, r.field? e.1 ≠ some field := by
  induction members generalizing seen ms with
  | nil => simp
  | cons e rest ih =>
    obtain ⟨first, more, seen', -, -, hmore, hsub, hfield⟩ := readMembers_cons h
    exact List.forall_mem_cons.mpr ⟨fun hf => (hfield _ hf).1 hseen, ih hmore (hsub hseen)⟩

/-- What gives a value for this field was read as this field. -/
structure Gives (r : Record Json μ) (field : String) (f : μ → Option β) : Prop where
  field : ∀ {field' i m b}, r.read field' i = .ok m → f m = some b → field' = field
  other : ∀ {key i ns}, r.other key i = .ok ns → ∀ m ∈ ns, f m = none

theorem Gives.eq_none {first : List μ} (hf : r.Gives field f)
    (h : r.readMember key x = .ok first) (hkey : r.field? key ≠ some field) :
    ∀ m ∈ first, f m = none := by
  unfold readMember at h
  split at h
  · rename_i field' hfield'
    obtain ⟨m, hm, h⟩ := bind_eq_ok h
    cases h
    refine List.forall_mem_singleton.mpr (Option.eq_none_iff_forall_ne_some.mpr fun b hb => ?_)
    exact hkey (hf.field hm hb ▸ hfield')
  · exact hf.other h

theorem Gives.findSome?_eq_none (hf : r.Gives field f) (h : r.readMembers seen members = .ok ms)
    (hnone : ∀ e ∈ members, r.field? e.1 ≠ some field) : ms.findSome? f = none := by
  induction members generalizing seen ms with
  | nil =>
    cases h
    rfl
  | cons e rest ih =>
    obtain ⟨first, more, seen', rfl, hfirst, hmore, -, -⟩ := readMembers_cons h
    obtain ⟨hkey, hrest⟩ := List.forall_mem_cons.mp hnone
    rw [List.findSome?_append, ih hmore hrest, Option.or_none]
    exact List.findSome?_eq_none_iff.mpr (hf.eq_none hfirst hkey)

theorem Gives.getD_of_missing {start : β} (hf : r.Gives field f) (haliases : r.aliases = [])
    (h : r.ofMap v = .ok ms) (hx : v.last? field = none) :
    (ms.findSome? f).getD start = start := by
  cases v with
  | obj members =>
    obtain ⟨ns, hns, h⟩ := bind_eq_ok h
    obtain ⟨-, -, h⟩ := bind_eq_ok h
    cases h
    rw [hf.findSome?_eq_none hns fun e he hkey => ?_, Option.getD_none]
    obtain rfl := eq_of_field? haliases hkey
    have hsome := Map.contains_ofList.mpr (List.mem_map_of_mem (f := (·.1)) he)
    exact Option.ne_none_iff_isSome.mpr hsome hx
  | null | bool | num | str | arr => cases h

theorem Gives.findSome?_eq (hf : r.Gives field f) (h : r.readMembers seen members = .ok ms)
    (hmem : (key, x) ∈ members) (hkey : r.field? key = some field) :
    ∃ m, r.read field x = .ok m ∧ ms.findSome? f = f m := by
  induction members generalizing seen ms with
  | nil => cases hmem
  | cons e rest ih =>
    obtain ⟨first, more, seen', rfl, hfirst, hmore, -, hseen⟩ := readMembers_cons h
    rw [List.findSome?_append]
    rcases List.mem_cons.mp hmem with rfl | hmem
    · have hnone := hf.findSome?_eq_none hmore (field?_ne_of_seen hmore (hseen _ hkey).2)
      simp only [readMember, hkey] at hfirst
      obtain ⟨m, hm, hfirst⟩ := bind_eq_ok hfirst
      cases hfirst
      refine ⟨m, hm, ?_⟩
      rw [hnone, Option.or_none]
      cases hfm : f m <;> simp [hfm]
    · have hne : r.field? e.1 ≠ some field := fun hsame =>
        field?_ne_of_seen hmore (hseen _ hsame).2 _ hmem hkey
      rw [List.findSome?_eq_none_iff.mpr (hf.eq_none hfirst hne), Option.none_or]
      exact ih hmore hmem

/-- What is gathered for a field was read from what stands under one of its names. -/
theorem Gives.read_eq_ok (make : β → μ) {read : Json → Read β} (hf : r.Gives field f)
    (hread : ∀ i, r.read field i = make <$> read i) (hmake : ∀ b, f (make b) = some b)
    (h : r.ofMap v = .ok ms) (hx : v.last? key = some x) (hkey : r.field? key = some field)
    (start : β) : read x = .ok ((ms.findSome? f).getD start) := by
  obtain ⟨members, rfl, hmem⟩ := Json.exists_of_last? hx
  obtain ⟨ns, hns, h⟩ := bind_eq_ok h
  obtain ⟨-, -, h⟩ := bind_eq_ok h
  cases h
  obtain ⟨m, hm, hfind⟩ := hf.findSome?_eq hns hmem hkey
  obtain ⟨b, hb, rfl⟩ := map_eq_ok ((hread x).symm.trans hm)
  rw [hb, hfind, hmake]
  rfl

theorem Gives.read_member (make : β → μ) {read : Json → Read β} {start : β} (hf : r.Gives field f)
    (h : r.ofMap v = .ok ms) (hread : ∀ i, r.read field i = make <$> read i)
    (hmake : ∀ b, f (make b) = some b) (hkey : r.field? field = some field) (x : Json)
    (hx : v.last? field = some x) :
    r.read field x = .ok (make ((ms.findSome? f).getD start)) := by
  rw [hread, hf.read_eq_ok make hread hmake h hx hkey start]
  rfl

theorem Gives.exists_read (make : β → μ) {read : Json → Read β} (hf : r.Gives field f)
    (hread : ∀ i, r.read field i = make <$> read i) (hmake : ∀ b, f (make b) = some b)
    (h : r.ofMap v = .ok ms) (hx : v.sorted.get? key = some x) (hkey : r.field? key = some field)
    (start : β) :
    ∃ x₀ : Json, x₀.sorted = x ∧ read x₀ = .ok ((ms.findSome? f).getD start) := by
  rw [Json.get?_sorted] at hx
  obtain ⟨x₀, hx₀, rfl⟩ := Option.map_eq_some_iff.mp hx
  exact ⟨x₀, rfl, hf.read_eq_ok make hread hmake h hx₀ hkey start⟩

-- ---------------------------------------------------------------------------
-- Members that are no fields
-- ---------------------------------------------------------------------------

/-- A record sets aside what it does not know, and nothing else, as values. -/
structure SetsAside (r : Record Json μ) (f : μ → Option (String × Json)) : Prop where
  field : ∀ {field i m}, field ∈ r.fields → r.read field i = .ok m → f m = none
  other : ∀ {key i ns}, r.other key i = .ok ns → ns.filterMap f = [(key, i.sorted)]
  aliases : ∀ a ∈ r.aliases, a.2 ∈ r.fields

variable {f : μ → Option (String × Json)}

theorem SetsAside.filterMap_eq (hf : r.SetsAside f) (h : r.readMembers seen members = .ok ms) :
    ms.filterMap f = (members.filter fun e => (r.field? e.1).isNone).map
      fun e => (e.1, e.2.sorted) := by
  induction members generalizing seen ms with
  | nil =>
    cases h
    rfl
  | cons e rest ih =>
    obtain ⟨first, more, seen', rfl, hfirst, hmore, -, -⟩ := readMembers_cons h
    rw [List.filterMap_append, ih hmore]
    unfold readMember at hfirst
    cases hkey : r.field? e.1 with
    | none =>
      simp only [hkey] at hfirst
      simp [hkey, hf.other hfirst]
    | some field =>
      simp only [hkey] at hfirst
      obtain ⟨m, hm, hfirst⟩ := bind_eq_ok hfirst
      cases hfirst
      simp [hkey, hf.field (mem_fields_of_field? hf.aliases hkey) hm]

theorem SetsAside.get?_eq (hf : r.SetsAside f) (h : r.ofMap v = .ok ms)
    (hkey : r.field? key = none) : (Map.ofList (ms.filterMap f)).get? key = v.sorted.get? key := by
  unfold ofMap at h
  split at h
  · rename_i members stop hview
    obtain ⟨ns, hns, h⟩ := bind_eq_ok h
    obtain ⟨-, -, h⟩ := bind_eq_ok h
    cases h
    cases v with
    | obj members' =>
      cases hview
      rw [hf.filterMap_eq hns, Map.ofList_map, Map.get?_map, Json.get?_sorted_obj,
        Map.get?_ofList_filter (p := fun k => (r.field? k).isNone) (by simp [hkey])]
    | null | bool | num | str | arr => cases hview
  · cases h

end Record

end ShellSettings
