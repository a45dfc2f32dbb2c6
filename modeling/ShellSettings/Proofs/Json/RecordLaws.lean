import ShellSettings.Json.Record
import ShellSettings.Proofs.Json.SortedLaws

/-!
# Reading what was written

A source is lawful if it can be looked into wherever its whole can be taken. From
such a source every reader gives back what was written, whatever the order of
members: a leaf by itself, a list or a map if its parts can be read, and a record
if each of its members can. In the other direction, what a reader gives has been
read member by member, so what holds of all that its parts can give holds of it.
-/

namespace ShellSettings

open Source (view whole)

-- ---------------------------------------------------------------------------
-- Attempts
-- ---------------------------------------------------------------------------

section Attempts

variable {ε α β : Type} {x : Except ε α} {f : α → β} {g : α → Except ε β} {a : α} {b : β}

@[simp] theorem map_ok : f <$> (.ok a : Except ε α) = .ok (f a) := rfl

@[simp] theorem ok_bind : (.ok a : Except ε α) >>= g = g a := rfl

@[simp] theorem pure_eq_ok : (pure a : Except ε α) = .ok a := rfl

theorem map_eq_ok (h : f <$> x = .ok b) : ∃ a, x = .ok a ∧ f a = b := by
  cases x with
  | error e => cases h
  | ok a => exact ⟨a, rfl, Except.ok.inj h⟩

theorem bind_eq_ok (h : x >>= g = .ok b) : ∃ a, x = .ok a ∧ g a = .ok b := by
  cases x with
  | error e => cases h
  | ok a => exact ⟨a, rfl, h⟩

end Attempts

variable {σ α μ : Type} [Source σ] {g : Json → Json} {s : σ}

/-- Where the whole can be taken, a look shows the same value. -/
class LawfulSource (σ : Type) [Source σ] : Prop where
  null : ∀ {s : σ}, whole s = .ok .null → view s = .null
  bool : ∀ {s : σ} {b}, whole s = .ok (.bool b) → view s = .bool b
  number : ∀ {s : σ} {n}, whole s = .ok (.num n) → view s = .number n
  text : ∀ {s : σ} {t}, whole s = .ok (.str t) → view s = .text t
  sequence : ∀ {s : σ} {xs}, whole s = .ok (.arr xs) →
    ∃ items, view s = .sequence items none ∧ items.map whole = xs.map .ok
  map : ∀ {s : σ} {ms}, whole s = .ok (.obj ms) →
    ∃ members, view s = .map members .closed ∧
      members.map (fun m => (m.1, whole m.2)) = ms.map fun m => (m.1, .ok m.2)

instance : LawfulSource Json where
  null h := by cases h; rfl
  bool h := by cases h; rfl
  number h := by cases h; rfl
  text h := by cases h; rfl
  sequence {s xs} h := by cases h; exact ⟨xs, rfl, rfl⟩
  map {s ms} h := by cases h; exact ⟨ms, rfl, rfl⟩

instance : LawfulSource SetAside where
  null {s} h := by obtain ⟨v⟩ := s; cases h; rfl
  bool {s _} h := by obtain ⟨v⟩ := s; cases h; rfl
  number {s _} h := by obtain ⟨v⟩ := s; cases h; rfl
  text {s _} h := by obtain ⟨v⟩ := s; cases h; rfl
  sequence {s xs} h := by
    obtain ⟨v⟩ := s
    cases h
    exact ⟨xs.map SetAside.mk, rfl, by simp [Source.whole, Function.comp_def]⟩
  map {s ms} h := by
    obtain ⟨v⟩ := s
    cases h
    exact ⟨ms.map fun m => (m.1, ⟨m.2⟩), rfl, by simp [Source.whole, Function.comp_def]⟩

namespace Read

variable [LawfulSource σ]

-- ---------------------------------------------------------------------------
-- Leaves
-- ---------------------------------------------------------------------------

theorem bool_written {b : Bool} (hg : Json.Rearranges g) (h : whole s = .ok (g (.bool b))) :
    bool s = .ok b := by
  rw [hg.bool] at h
  simp [bool, LawfulSource.bool h]

theorem int32_written {v : Int32} (hg : Json.Rearranges g)
    (h : whole s = .ok (g (.int v.toInt))) : int32 s = .ok v := by
  have hlow := v.minValue_le_toInt
  have hhigh := v.toInt_le
  rw [Json.int, hg.num] at h
  simp only [Int32.toInt_minValue, Int32.toInt_maxValue] at hlow hhigh
  have hrange : -0x80000000 ≤ v.toInt ∧ v.toInt ≤ 0x7fffffff := ⟨by omega, by omega⟩
  simp [int32, integer, LawfulSource.number h, hrange, Except.map]

theorem text_written {t : String} (hg : Json.Rearranges g) (h : whole s = .ok (g (.str t))) :
    text s = .ok t := by
  rw [hg.str] at h
  simp [text, textAs, LawfulSource.text h]

theorem optional_written {read : σ → Read α} {v : Json} {a : α} (hg : Json.Rearranges g)
    (hv : v ≠ .null) (h : whole s = .ok (g v)) (hread : read s = .ok a) :
    optional read s = .ok (some a) := by
  have hnull : view s ≠ .null := by
    have hgv := hg.sorted v
    cases hw : g v with
    | null =>
      rw [hw] at hgv
      cases v <;> cases hgv
      exact absurd rfl hv
    | bool b => simp [LawfulSource.bool (hw ▸ h)]
    | num n => simp [LawfulSource.number (hw ▸ h)]
    | str t => simp [LawfulSource.text (hw ▸ h)]
    | arr xs =>
      obtain ⟨items, hview, -⟩ := LawfulSource.sequence (hw ▸ h)
      simp [hview]
    | obj ms =>
      obtain ⟨members, hview, -⟩ := LawfulSource.map (hw ▸ h)
      simp [hview]
  unfold optional
  split
  · contradiction
  · simp [hread, Except.map]

theorem optional_text_written {t : Option String} (hg : Json.Rearranges g)
    (h : whole s = .ok (g (.ofOption t))) : optional text s = .ok t := by
  cases t with
  | none =>
    rw [Json.ofOption, hg.null] at h
    simp [optional, LawfulSource.null h]
  | some t => exact optional_written hg (by simp [Json.ofOption]) h (text_written hg h)

omit [LawfulSource σ] in
theorem json_written {v : Json} (hg : Json.Rearranges g) (hv : v.IsSorted)
    (h : whole s = .ok (g v)) : json s = .ok v := by
  simp [json, h, Except.map, hg.sorted, Json.IsSorted.eq hv]

theorem name_written (table : List (String × α)) {t : String} {a : α} (hg : Json.Rearranges g)
    (ht : table.lookup t = some a) (h : whole s = .ok (g (.str t))) : name table s = .ok a := by
  rw [hg.str] at h
  simp [name, LawfulSource.text h, variant, ht]

-- ---------------------------------------------------------------------------
-- Containers
-- ---------------------------------------------------------------------------

omit [LawfulSource σ] in
theorem mapM_written {τ : Type} {read : τ → Read α} {items : List τ} {xs : List α}
    (h : items.map read = xs.map .ok) : items.mapM read = .ok xs := by
  induction xs generalizing items with
  | nil =>
    cases List.map_eq_nil_iff.mp h
    rfl
  | cons x xs ih =>
    cases items with
    | nil => cases h
    | cons i items =>
      obtain ⟨head, tail⟩ := List.cons.inj h
      simp [List.mapM_cons, head, ih tail]

omit [LawfulSource σ] in
theorem map_read_of_map_whole {β τ : Type} {read : τ → Read α} {look : τ → β} {shown : α → β}
    {items : List τ} {xs : List α} (hread : ∀ x ∈ xs, ∀ i, look i = shown x → read i = .ok x)
    (h : items.map look = xs.map shown) : items.map read = xs.map .ok := by
  induction xs generalizing items with
  | nil =>
    cases List.map_eq_nil_iff.mp h
    rfl
  | cons x xs ih =>
    cases items with
    | nil => cases h
    | cons i items =>
      obtain ⟨head, tail⟩ := List.cons.inj h
      simp only [List.map_cons, hread x List.mem_cons_self i head,
        ih (fun y hy => hread y (List.mem_cons_of_mem _ hy)) tail]

theorem list_written (read : σ → Read α) (write : α → Json) {xs : List α}
    (hg : Json.Rearranges g)
    (hread : ∀ x ∈ xs, ∀ i, whole i = .ok (g (write x)) → read i = .ok x)
    (h : whole s = .ok (g (.arr (xs.map write)))) : list read s = .ok xs := by
  rw [hg.arr, List.map_map] at h
  obtain ⟨items, hview, hitems⟩ := LawfulSource.sequence h
  rw [List.map_map] at hitems
  have hxs := mapM_written (map_read_of_map_whole hread hitems)
  simp [list, hview, hxs, finish]

/-- A look at a source shows these members under keys of their own, in whatever order. -/
def Shows (g : Json → Json) (ms : List (String × Json)) (s : σ) : Prop :=
  ∃ members, view s = .map members .closed ∧ (members.map (·.1)).Nodup ∧
    (∀ m ∈ members, ∃ e ∈ ms, m.1 = e.1 ∧ whole m.2 = .ok (g e.2)) ∧
    ∀ e ∈ ms, ∃ m ∈ members, m.1 = e.1 ∧ whole m.2 = .ok (g e.2)

theorem shows_written {ms : List (String × Json)} (hg : Json.Rearranges g)
    (hkeys : (ms.map (·.1)).Nodup) (h : whole s = .ok (g (.obj ms))) : Shows g ms s := by
  obtain ⟨ns, hobj, hnodup, hmem⟩ := hg.obj ms hkeys
  rw [hobj] at h
  obtain ⟨members, hview, hsame⟩ := LawfulSource.map h
  have hfirst : members.map (·.1) = ns.map (·.1) := by
    simpa [Function.comp_def] using congrArg (List.map Prod.fst) hsame
  refine ⟨members, hview, hfirst ▸ hnodup, fun m hm => ?_, fun e he => ?_⟩
  · have hin : (m.1, whole m.2) ∈ ns.map fun n => (n.1, Except.ok n.2) :=
      hsame ▸ List.mem_map.mpr ⟨m, hm, rfl⟩
    obtain ⟨n, hn, heq⟩ := List.mem_map.mp hin
    obtain ⟨e, he, rfl⟩ := (hmem n).mp hn
    simp only [Prod.mk.injEq] at heq
    exact ⟨e, he, heq.1.symm, heq.2.symm⟩
  · have hn := (hmem (e.1, g e.2)).mpr ⟨e, he, rfl⟩
    have hin : (e.1, Except.ok (g e.2)) ∈ members.map fun m => (m.1, whole m.2) :=
      hsame ▸ List.mem_map.mpr ⟨_, hn, rfl⟩
    obtain ⟨m, hm, heq⟩ := List.mem_map.mp hin
    simp only [Prod.mk.injEq] at heq
    exact ⟨m, hm, heq.1, heq.2⟩

omit [LawfulSource σ] in
theorem mapM_ok_of_forall {τ : Type} {f : τ → Read α} {items : List τ}
    (h : ∀ i ∈ items, ∃ x, f i = .ok x) :
    ∃ xs, items.mapM f = .ok xs ∧ ∀ x, x ∈ xs ↔ ∃ i ∈ items, f i = .ok x := by
  induction items with
  | nil => exact ⟨[], rfl, by simp⟩
  | cons i items ih =>
    obtain ⟨x, hx⟩ := h i List.mem_cons_self
    obtain ⟨xs, hxs, hmem⟩ := ih fun j hj => h j (List.mem_cons_of_mem _ hj)
    refine ⟨x :: xs, ?_, fun y => ?_⟩
    · simp [List.mapM_cons, hx, hxs]
    · simp [hmem, hx, eq_comm]

theorem map_written (read : σ → Read α) (write : α → Json) {m : Map α}
    (hg : Json.Rearranges g)
    (hread : ∀ e ∈ m.entries, ∀ i, whole i = .ok (g (write e.2)) → read i = .ok e.2)
    (h : whole s = .ok (g (.obj (m.entries.map fun e => (e.1, write e.2))))) :
    map read s = .ok m := by
  have hkeys : ((m.entries.map fun e => (e.1, write e.2)).map (·.1)).Nodup := by
    simpa [Function.comp_def] using m.nodup_keys
  obtain ⟨members, hview, -, hfrom, hto⟩ := shows_written hg hkeys h
  -- Every member is read to the entry it was written from.
  have hentry : ∀ i ∈ members, ∃ e ∈ m.entries,
      (do return (i.1, ← read i.2) : Read (String × α)) = .ok e := by
    intro i hi
    obtain ⟨_, hw, hkey, hwhole⟩ := hfrom i hi
    obtain ⟨e, he, rfl⟩ := List.mem_map.mp hw
    exact ⟨e, he, by simp [hread e he _ hwhole, hkey]⟩
  obtain ⟨xs, hxs, hmem⟩ := mapM_ok_of_forall fun i hi => (hentry i hi).imp fun _ h => h.2
  have hall : Map.ofList xs = m := by
    refine Map.ofList_eq fun e => ⟨fun he => ?_, fun he => ?_⟩
    · obtain ⟨i, hi, hie⟩ := (hmem e).mp he
      obtain ⟨e', he', hie'⟩ := hentry i hi
      cases hie.symm.trans hie'
      exact he'
    · obtain ⟨i, hi, hkey, hwhole⟩ := hto _ (List.mem_map.mpr ⟨e, he, rfl⟩)
      refine (hmem e).mpr ⟨i, hi, ?_⟩
      simp [hread e he _ hwhole, hkey]
  simp only [map, hview]
  rw [hxs]
  simp [hall, finish, MapEnd.fault?]

theorem blob_written {b : Blob} (hg : Json.Rearranges g) (hb : b.All Json.IsSorted)
    (h : whole s = .ok (g (.ofMap b))) : blob s = .ok b :=
  map_written _ id hg (fun e he _ hi => json_written hg (hb e he) hi)
    (by simpa [Json.ofMap] using h)

-- ---------------------------------------------------------------------------
-- What readers can give
-- ---------------------------------------------------------------------------

omit [LawfulSource σ]

theorem sorted_of_json {v : Json} (h : json s = .ok v) : v.IsSorted := by
  unfold json at h
  cases hw : whole s with
  | error e => simp [hw, Except.map] at h
  | ok w =>
    simp only [hw, Except.map, Except.ok.injEq] at h
    exact h ▸ Json.sorted_sorted w

theorem mem_of_mapM {τ : Type} {f : τ → Read α} {items : List τ} {xs : List α}
    (h : items.mapM f = .ok xs) : ∀ x ∈ xs, ∃ i ∈ items, f i = .ok x := by
  induction items generalizing xs with
  | nil =>
    cases h
    simp
  | cons i items ih =>
    rw [List.mapM_cons] at h
    obtain ⟨x, hi, h⟩ := bind_eq_ok h
    obtain ⟨rest, hrest, h⟩ := bind_eq_ok h
    cases h
    intro y hy
    rcases List.mem_cons.mp hy with rfl | hy
    · exact ⟨i, List.mem_cons_self, hi⟩
    · obtain ⟨j, hj, hfj⟩ := ih hrest y hy
      exact ⟨j, List.mem_cons_of_mem _ hj, hfj⟩

theorem all_of_list {P : α → Prop} {read : σ → Read α} {xs : List α} (h : list read s = .ok xs)
    (hread : ∀ i x, read i = .ok x → P x) : ∀ x ∈ xs, P x := by
  unfold list at h
  split at h
  · obtain ⟨ys, hys, h⟩ := bind_eq_ok h
    obtain ⟨-, -, h⟩ := bind_eq_ok h
    cases h
    intro x hx
    obtain ⟨i, -, hi⟩ := mem_of_mapM hys x hx
    exact hread i x hi
  · cases h

theorem all_of_map {P : α → Prop} {read : σ → Read α} {m : Map α} (h : map read s = .ok m)
    (hread : ∀ i x, read i = .ok x → P x) : m.All P := by
  unfold map at h
  split at h
  · rename_i members stop _
    obtain ⟨xs, hxs, h⟩ := bind_eq_ok h
    obtain ⟨-, -, h⟩ := bind_eq_ok h
    cases h
    intro e he
    obtain ⟨i, -, hi⟩ := mem_of_mapM hxs e (Map.mem_of_mem_ofList he)
    obtain ⟨x, hx, hi⟩ := bind_eq_ok hi
    cases hi
    exact hread i.2 x hx
  · cases h

theorem sorted_of_blob {b : Blob} (h : blob s = .ok b) : b.All Json.IsSorted :=
  all_of_map h fun _ _ => sorted_of_json

theorem all_of_optional {P : α → Prop} {read : σ → Read α} {x : Option α}
    (h : optional read s = .ok x) (hread : ∀ i x, read i = .ok x → P x) : ∀ a ∈ x, P a := by
  unfold optional at h
  split at h
  · cases h
    simp
  · cases hr : read s with
    | error e => simp [hr, Except.map] at h
    | ok a =>
      simp only [hr, Except.map, Except.ok.injEq] at h
      subst h
      intro b hb
      cases hb
      exact hread s a hr

end Read

-- ---------------------------------------------------------------------------
-- Records
-- ---------------------------------------------------------------------------

namespace Record

variable {r : Record σ μ}

omit [Source σ] in
theorem mem_fields_of_field? {key field : String} (haliases : ∀ a ∈ r.aliases, a.2 ∈ r.fields)
    (h : r.field? key = some field) : field ∈ r.fields := by
  unfold field? at h
  split at h
  · cases h
    assumption
  · exact haliases _ (Map.mem_of_lookup_eq_some h)

def readMember (r : Record σ μ) (key : String) (s : σ) : Read (List μ) :=
  match r.field? key with
  | some field => do
    let m ← r.read field s
    return [m]
  | none => r.other key s

omit [Source σ] in
theorem readMembers_eq_ok (seen : List String) {members : List (String × σ)}
    (hnodup : (members.map (·.1)).Nodup) (hseen : ∀ e ∈ members, e.1 ∉ seen)
    (hname : ∀ e ∈ members, ∀ field, r.field? e.1 = some field → field = e.1)
    (hread : ∀ e ∈ members, ∃ m, r.readMember e.1 e.2 = .ok [m]) :
    ∃ ms, r.readMembers seen members = .ok ms ∧
      ∀ m, m ∈ ms ↔ ∃ e ∈ members, r.readMember e.1 e.2 = .ok [m] := by
  induction members generalizing seen with
  | nil => exact ⟨[], rfl, by simp⟩
  | cons e rest ih =>
    obtain ⟨key, s⟩ := e
    obtain ⟨hkey, hrest⟩ := List.nodup_cons.mp hnodup
    obtain ⟨m, hm⟩ := hread _ List.mem_cons_self
    have hfresh : ∀ e ∈ rest, e.1 ≠ key := fun e he heq =>
      hkey (List.mem_map.mpr ⟨e, he, heq⟩)
    have ih' := fun seen hseen => ih seen hrest hseen
      (fun e he => hname e (List.mem_cons_of_mem _ he))
      (fun e he => hread e (List.mem_cons_of_mem _ he))
    have hmem : ∀ {ms : List μ}, (∀ n, n ∈ ms ↔ ∃ e ∈ rest, r.readMember e.1 e.2 = .ok [n]) →
        ∀ n, n ∈ m :: ms ↔ ∃ e ∈ (key, s) :: rest, r.readMember e.1 e.2 = .ok [n] := by
      intro ms hms n
      simp [hms, hm, eq_comm]
    cases hf : r.field? key with
    | none =>
      obtain ⟨ms, hms, hiff⟩ := ih' seen fun e he => hseen e (List.mem_cons_of_mem _ he)
      have hother : r.other key s = .ok [m] := by simpa [readMember, hf] using hm
      refine ⟨m :: ms, ?_, hmem hiff⟩
      simp [readMembers, hf, hother, hms]
    | some field =>
      cases hname _ List.mem_cons_self field hf
      obtain ⟨ms, hms, hiff⟩ := ih' (key :: seen) fun e he => by
        simp [hfresh e he, hseen e (List.mem_cons_of_mem _ he)]
      have hfield : r.read key s = .ok m := by
        cases hr : r.read key s with
        | error e => simp [readMember, hf, hr, bind, Except.bind] at hm
        | ok n => simpa [readMember, hf, hr] using hm
      refine ⟨m :: ms, ?_, hmem hiff⟩
      simp [readMembers, hf, hseen _ List.mem_cons_self, hfield, hms]

/-- Member `m`, written as an entry, is read again, as the field of that key or as no field. -/
def ReadsBack (r : Record σ μ) (g : Json → Json) (m : μ) (e : String × Json) : Prop :=
  ∀ i, whole i = .ok (g e.2) →
    e.1 ∈ r.fields ∧ r.read e.1 i = .ok m ∨ r.field? e.1 = none ∧ r.other e.1 i = .ok [m]

/-- A record gives back the members that its source shows if each of them can be read. `write`
leaves out members that say nothing. -/
theorem ofMap_shown {ms : List μ} (write : μ → Option (String × Json))
    (hread : ∀ m ∈ ms, ∀ e, write m = some e → r.ReadsBack g m e)
    (h : Read.Shows g (ms.filterMap write) s) :
    ∃ ns, r.ofMap s = .ok ns ∧ ∀ m, m ∈ ns ↔ m ∈ ms ∧ (write m).isSome := by
  obtain ⟨members, hview, hkeys, hfrom, hto⟩ := h
  have hone : ∀ m ∈ ms, ∀ key v, write m = some (key, v) → ∀ i, whole i = .ok (g v) →
      (∀ field, r.field? key = some field → field = key) ∧ r.readMember key i = .ok [m] := by
    intro m hm key v hw i hi
    rcases hread m hm (key, v) hw i hi with ⟨hfield, hr⟩ | ⟨hfield, hr⟩
    · simp [readMember, field?, hfield, hr]
    · simp [readMember, hfield, hr]
  have hsource : ∀ i ∈ members, ∃ m ∈ ms, ∃ v, write m = some (i.1, v) ∧ whole i.2 = .ok (g v) := by
    intro i hi
    obtain ⟨⟨key, v⟩, he, hkey, hwhole⟩ := hfrom i hi
    obtain ⟨m, hm, hw⟩ := List.mem_filterMap.mp he
    exact ⟨m, hm, v, by simpa [hkey] using hw, hwhole⟩
  obtain ⟨ns, hns, hiff⟩ := readMembers_eq_ok (r := r) [] hkeys (by simp)
    (fun i hi => by
      obtain ⟨m, hm, v, hw, hwhole⟩ := hsource i hi
      exact (hone m hm _ v hw _ hwhole).1)
    (fun i hi => by
      obtain ⟨m, hm, v, hw, hwhole⟩ := hsource i hi
      exact ⟨m, (hone m hm _ v hw _ hwhole).2⟩)
  refine ⟨ns, ?_, fun m => (hiff m).trans ⟨?_, ?_⟩⟩
  · simp [ofMap, hview, hns, Read.finish, MapEnd.fault?]
  · rintro ⟨i, hi, hm⟩
    obtain ⟨n, hn, v, hw, hwhole⟩ := hsource i hi
    cases hm.symm.trans (hone n hn _ v hw _ hwhole).2
    exact ⟨hn, by simp [hw]⟩
  · rintro ⟨hm, hsome⟩
    obtain ⟨⟨key, v⟩, hw⟩ := Option.isSome_iff_exists.mp hsome
    obtain ⟨i, hi, rfl, hwhole⟩ := hto _ (List.mem_filterMap.mpr ⟨m, hm, hw⟩)
    exact ⟨i, hi, (hone m hm _ v hw _ hwhole).2⟩

theorem ofMap_written [LawfulSource σ] {ms : List μ} (write : μ → Option (String × Json))
    (hg : Json.Rearranges g) (hnodup : ((ms.filterMap write).map (·.1)).Nodup)
    (hread : ∀ m ∈ ms, ∀ e, write m = some e → r.ReadsBack g m e)
    (h : whole s = .ok (g (.obj (ms.filterMap write)))) :
    ∃ ns, r.ofMap s = .ok ns ∧ ∀ m, m ∈ ns ↔ m ∈ ms ∧ (write m).isSome :=
  ofMap_shown write hread (Read.shows_written hg hnodup h)

theorem ofMap_map_written [LawfulSource σ] {ms : List μ} {write : μ → String × Json}
    (hg : Json.Rearranges g) (hnodup : (ms.map fun m => (write m).1).Nodup)
    (hread : ∀ m ∈ ms, r.ReadsBack g m (write m))
    (h : whole s = .ok (g (.obj (ms.map write)))) :
    ∃ ns, r.ofMap s = .ok ns ∧ ∀ m, m ∈ ns ↔ m ∈ ms ∧ True := by
  obtain ⟨ns, hns, hmem⟩ := ofMap_written (r := r) (fun m => some (write m)) hg
    (by simpa [List.filterMap_eq_map', Function.comp_def] using hnodup)
    (fun m hm e hw => Option.some.inj hw ▸ hread m hm)
    (by simpa [List.filterMap_eq_map'] using h)
  exact ⟨ns, hns, by simpa using hmem⟩

omit [Source σ] in
theorem nodup_append_keys {α : Type} {keys : List String} (extra : Map α) (hfields : r.fields.Nodup)
    (hkeys : keys.Sublist r.fields) (hextra : ∀ e ∈ extra.entries, r.field? e.1 = none) :
    (keys ++ extra.entries.map (·.1)).Nodup := by
  refine List.nodup_append.mpr ⟨hfields.sublist hkeys, extra.nodup_keys, ?_⟩
  intro key hkey key' hkey' heq
  obtain ⟨e, he, rfl⟩ := List.mem_map.mp hkey'
  have hnone := hextra e he
  simp [field?, ← heq, hkeys.subset hkey] at hnone

omit [Source σ] in
theorem readMembers_cons {key : String} {seen : List String} {rest : List (String × σ)}
    {ms : List μ} (h : r.readMembers seen ((key, s) :: rest) = .ok ms) :
    ∃ first more seen', ms = first ++ more ∧ r.readMember key s = .ok first ∧
      r.readMembers seen' rest = .ok more ∧ seen ⊆ seen' ∧
      ∀ field, r.field? key = some field → field ∉ seen ∧ field ∈ seen' := by
  unfold readMembers at h
  cases hf : r.field? key with
  | none =>
    simp only [hf] at h
    obtain ⟨ns, hns, h⟩ := bind_eq_ok h
    obtain ⟨more, hmore, h⟩ := bind_eq_ok h
    cases h
    exact ⟨ns, more, seen, rfl, by simpa [readMember, hf] using hns, hmore,
      List.Subset.refl _, nofun⟩
  | some field =>
    simp only [hf] at h
    split at h
    · cases h
    · rename_i hnew
      obtain ⟨m, hm, h⟩ := bind_eq_ok h
      obtain ⟨more, hmore, h⟩ := bind_eq_ok h
      cases h
      refine ⟨[m], more, field :: seen, rfl, by simp [readMember, hf, hm], hmore,
        List.subset_cons_self _ _, fun field' hfield' => ?_⟩
      cases hfield'
      exact ⟨hnew, List.mem_cons_self⟩

omit [Source σ] in
theorem all_of_readMembers {P : μ → Prop} {seen : List String} {members : List (String × σ)}
    {ms : List μ} (h : r.readMembers seen members = .ok ms)
    (hread : ∀ key i ns, r.readMember key i = .ok ns → ∀ m ∈ ns, P m) : ∀ m ∈ ms, P m := by
  induction members generalizing seen ms with
  | nil =>
    cases h
    simp
  | cons e rest ih =>
    obtain ⟨first, more, seen', rfl, hfirst, hmore, -, -⟩ := readMembers_cons h
    exact List.forall_mem_append.mpr ⟨hread _ _ _ hfirst, ih hmore⟩

theorem all_of_ofMap {P : μ → Prop} {ms : List μ} (h : r.ofMap s = .ok ms)
    (haliases : ∀ a ∈ r.aliases, a.2 ∈ r.fields)
    (hfield : ∀ field ∈ r.fields, ∀ i m, r.read field i = .ok m → P m)
    (hother : ∀ key i ns, r.field? key = none → r.other key i = .ok ns → ∀ m ∈ ns, P m) :
    ∀ m ∈ ms, P m := by
  have hmember : ∀ key i ns, r.readMember key i = .ok ns → ∀ m ∈ ns, P m := by
    intro key i ns hns
    unfold readMember at hns
    split at hns
    · rename_i field hf
      obtain ⟨m, hm, hns⟩ := bind_eq_ok hns
      cases hns
      simpa using hfield field (mem_fields_of_field? haliases hf) i m hm
    · rename_i hf
      exact hother key i ns hf hns
  unfold ofMap at h
  split at h
  · obtain ⟨ns, hns, h⟩ := bind_eq_ok h
    obtain ⟨-, -, h⟩ := bind_eq_ok h
    cases h
    exact all_of_readMembers hns hmember
  · cases h

-- ---------------------------------------------------------------------------
-- Members gathered
-- ---------------------------------------------------------------------------

section Gathered

variable {β : Type} {f : μ → Option β} {ms ns : List μ} {kept : μ → Prop} {b start : β}

/-- The one value that a record's members give for a field is found again among those that are
written, wherever it stands. -/
theorem findSome?_eq_some (hmem : ∀ m, m ∈ ns ↔ m ∈ ms ∧ kept m)
    (hone : ∀ m ∈ ms, ∀ b', f m = some b' → b' = b) (hb : ∃ m ∈ ms, f m = some b ∧ kept m) :
    ns.findSome? f = some b := by
  obtain ⟨m, hm, hf, hk⟩ := hb
  cases hfind : ns.findSome? f with
  | none => simp [List.findSome?_eq_none_iff.mp hfind m ((hmem m).mpr ⟨hm, hk⟩)] at hf
  | some b' =>
    obtain ⟨n, hn, hf'⟩ := List.exists_of_findSome?_eq_some hfind
    rw [hone n ((hmem n).mp hn).1 b' hf']

theorem getD_findSome?_eq (hmem : ∀ m, m ∈ ns ↔ m ∈ ms ∧ kept m)
    (hone : ∀ m ∈ ms, ∀ b', f m = some b' → b' = b)
    (hb : ∃ m ∈ ms, f m = some b ∧ (kept m ∨ b = start)) :
    (ns.findSome? f).getD start = b := by
  obtain ⟨m, hm, hf, hk | rfl⟩ := hb
  · simp [findSome?_eq_some hmem hone ⟨m, hm, hf, hk⟩]
  · cases hfind : ns.findSome? f with
    | none => rfl
    | some b' =>
      obtain ⟨n, hn, hf'⟩ := List.exists_of_findSome?_eq_some hfind
      exact hone n ((hmem n).mp hn).1 b' hf'

theorem ofList_filterMap_eq {α : Type} (fields : List μ) {extra : Map α}
    {mk : String × α → μ} {f : μ → Option (String × α)}
    (hmem : ∀ m, m ∈ ns ↔ m ∈ fields ++ extra.entries.map mk ∧ kept m)
    (hfields : ∀ m ∈ fields, f m = none) (hmk : ∀ e, f (mk e) = some e ∧ kept (mk e)) :
    Map.ofList (ns.filterMap f) = extra := by
  refine Map.ofList_eq fun e => ?_
  rw [List.mem_filterMap]
  constructor
  · rintro ⟨m, hm, hf⟩
    rcases List.mem_append.mp ((hmem m).mp hm).1 with hm | hm
    · simp [hfields m hm] at hf
    · obtain ⟨e', he', rfl⟩ := List.mem_map.mp hm
      cases (hmk e').1.symm.trans hf
      exact he'
  · intro he
    have hin := List.mem_append_right fields (List.mem_map_of_mem (f := mk) he)
    exact ⟨mk e, (hmem _).mpr ⟨hin, (hmk e).2⟩, (hmk e).1⟩

theorem all_getD_findSome? {P : β → Prop} (hstart : P start)
    (hall : ∀ m ∈ ms, ∀ b, f m = some b → P b) : P ((ms.findSome? f).getD start) := by
  cases hfind : ms.findSome? f with
  | none => exact hstart
  | some b =>
    obtain ⟨m, hm, hf⟩ := List.exists_of_findSome?_eq_some hfind
    exact hall m hm b hf

theorem all_of_ofList_filterMap {α : Type} {P : μ → Prop} {f : μ → Option (String × α)}
    {mk : String × α → μ} (hall : ∀ m ∈ ms, P m) (hmk : ∀ m e, f m = some e → m = mk e) :
    ∀ m ∈ (Map.ofList (ms.filterMap f)).entries.map mk, P m := by
  intro m hm
  obtain ⟨e, he, rfl⟩ := List.mem_map.mp hm
  obtain ⟨n, hn, hf⟩ := List.mem_filterMap.mp (Map.mem_of_mem_ofList he)
  exact hmk n e hf ▸ hall n hn

end Gathered

end Record

end ShellSettings
