import Mathlib.Data.List.Nodup
import Mathlib.Data.List.Perm.Basic
import ShellSettings.Proofs.Json.TextLaws

/-!
# What canonical text tells apart

Canonical text rounds every number to a double and forgets the order of members,
and nothing else: two values without repeated keys have one canonical text
exactly when they are the same but for the order of members once every number is
rounded (`Json.canonical_eq_iff`).
-/

namespace ShellSettings

-- ---------------------------------------------------------------------------
-- UTF-16 units
-- ---------------------------------------------------------------------------

/-- A character is no surrogate, so its units say where they end. -/
theorem flatMap_units_injective {cs ds : List Char}
    (h : (cs.flatMap fun c =>
        if c.toNat < 0x10000 then [c.toNat]
        else [0xd800 + (c.toNat - 0x10000) / 0x400, 0xdc00 + (c.toNat - 0x10000) % 0x400]) =
      ds.flatMap fun c =>
        if c.toNat < 0x10000 then [c.toNat]
        else [0xd800 + (c.toNat - 0x10000) / 0x400, 0xdc00 + (c.toNat - 0x10000) % 0x400]) :
    cs = ds := by
  have hvalid : ∀ c : Char, c.toNat < 0xd800 ∨ 0xdfff < c.toNat ∧ c.toNat < 0x110000 :=
    fun c => c.valid
  induction cs generalizing ds with
  | nil =>
    cases ds with
    | nil => rfl
    | cons d ds =>
      rw [List.flatMap_cons] at h
      split at h <;> cases h
  | cons c cs ih =>
    cases ds with
    | nil =>
      rw [List.flatMap_cons] at h
      split at h <;> cases h
    | cons d ds =>
      rw [List.flatMap_cons, List.flatMap_cons] at h
      have hc := hvalid c
      have hd := hvalid d
      have hsame : c.toNat = d.toNat → c = d := fun he => Char.toNat_inj.mp he
      split at h <;> split at h
      · obtain ⟨hfirst, hrest⟩ := List.cons.inj h
        rw [hsame hfirst, ih hrest]
      · have hfirst := (List.cons.inj h).1
        omega
      · have hfirst := (List.cons.inj h).1
        omega
      · obtain ⟨hfirst, h⟩ := List.cons.inj h
        obtain ⟨hsecond, hrest⟩ := List.cons.inj h
        rw [hsame (by omega), ih hrest]

theorem utf16Units_injective {s t : String} (h : utf16Units s = utf16Units t) : s = t :=
  String.toList_inj.mp (flatMap_units_injective h)

-- ---------------------------------------------------------------------------
-- Order of units
-- ---------------------------------------------------------------------------

theorem unitsLe_total (ms ns : List Nat) : (unitsLe ms ns || unitsLe ns ms) = true := by
  induction ms generalizing ns with
  | nil => rfl
  | cons m ms ih =>
    cases ns with
    | nil => rfl
    | cons n ns =>
      rcases Nat.lt_trichotomy m n with h | rfl | h
      · simp [unitsLe, h.ne, h.ne', h]
      · simpa [unitsLe] using ih ns
      · simp [unitsLe, h.ne, h.ne', h]

theorem unitsLe_trans {ls ms ns : List Nat} (hlm : unitsLe ls ms = true)
    (hmn : unitsLe ms ns = true) : unitsLe ls ns = true := by
  induction ls generalizing ms ns with
  | nil => rfl
  | cons l ls ih =>
    cases ms with
    | nil => cases hlm
    | cons m ms =>
      cases ns with
      | nil => cases hmn
      | cons n ns =>
        simp only [unitsLe] at hlm hmn ⊢
        split at hlm
        · subst l
          split at hmn
          · rw [if_pos ‹_›]
            exact ih hlm hmn
          · rw [if_neg ‹_›]
            exact hmn
        · have hlt := of_decide_eq_true hlm
          split at hmn
          · subst m
            rw [if_neg (by omega)]
            exact hlm
          · have hlt' := of_decide_eq_true hmn
            rw [if_neg (by omega)]
            exact decide_eq_true (by omega)

theorem unitsLe_antisymm {ms ns : List Nat} (hmn : unitsLe ms ns = true)
    (hnm : unitsLe ns ms = true) : ms = ns := by
  induction ms generalizing ns with
  | nil =>
    cases ns with
    | nil => rfl
    | cons n ns => cases hnm
  | cons m ms ih =>
    cases ns with
    | nil => cases hmn
    | cons n ns =>
      simp only [unitsLe] at hmn hnm
      split at hmn
      · subst m
        rw [if_pos rfl] at hnm
        rw [ih hmn hnm]
      · rw [if_neg (by omega)] at hnm
        have := of_decide_eq_true hmn
        have := of_decide_eq_true hnm
        omega

namespace Json

-- ---------------------------------------------------------------------------
-- Values without repeated keys
-- ---------------------------------------------------------------------------

def KeysUnique : Json → Prop
  | .obj ms => (ms.map (·.1)).Nodup
  | _ => True

abbrev Unique (v : Json) : Prop := v.Everywhere KeysUnique

theorem unique_sorted (v : Json) : v.sorted.Unique := by
  induction v using partsInduction with
  | null | bool | num | str => trivial
  | arr xs ih =>
    refine ⟨trivial, itemsEverywhere_iff.mpr ?_⟩
    rw [sortedItems_eq_map]
    exact List.forall_mem_map.mpr ih
  | obj ms ih =>
    refine ⟨Map.nodup_keys _, membersEverywhere_iff.mpr fun e he => ?_⟩
    rw [sortedMembers_eq_map] at he
    obtain ⟨m, hm, rfl⟩ := List.mem_map.mp (Map.mem_of_mem_ofList he)
    exact ih m hm

theorem IsSorted.unique {v : Json} (h : v.IsSorted) : v.Unique :=
  h.eq ▸ unique_sorted v

-- ---------------------------------------------------------------------------
-- Order of members
-- ---------------------------------------------------------------------------

theorem utf16OrderedItems_eq_map (xs : List Json) :
    utf16OrderedItems xs = xs.map utf16Ordered := by
  induction xs with
  | nil => rfl
  | cons x xs ih => simp [utf16OrderedItems, ih]

theorem utf16OrderedMembers_eq_map (ms : List (String × Json)) :
    utf16OrderedMembers ms = ms.map fun m => (m.1, m.2.utf16Ordered) := by
  induction ms with
  | nil => rfl
  | cons m ms ih => simp [utf16OrderedMembers, ih]

abbrev unitsSorted (ms : List (String × Json)) : List (String × Json) :=
  ms.mergeSort fun a b => unitsLe (utf16Units a.1) (utf16Units b.1)

theorem unitsSorted_perm (ms : List (String × Json)) : (unitsSorted ms).Perm ms :=
  List.mergeSort_perm ms _

theorem unitsSorted_map (f : Json → Json) (ms : List (String × Json)) :
    (unitsSorted ms).map (fun m => (m.1, f m.2)) = unitsSorted (ms.map fun m => (m.1, f m.2)) :=
  List.map_mergeSort fun _ _ _ _ => rfl

theorem unitsSorted_eq {ms ns : List (String × Json)} (hms : (ms.map (·.1)).Nodup)
    (h : ms.Perm ns) : unitsSorted ms = unitsSorted ns := by
  have hpairwise : ∀ l : List (String × Json), (unitsSorted l).Pairwise fun a b =>
      unitsLe (utf16Units a.1) (utf16Units b.1) = true :=
    List.pairwise_mergeSort (fun _ _ _ => unitsLe_trans) fun _ _ => unitsLe_total _ _
  have hkeys : ((unitsSorted ms).map (·.1)).Nodup :=
    ((unitsSorted_perm ms).map _).nodup_iff.mpr hms
  refine List.Perm.eq_of_pairwise ?_ (hpairwise ms) (hpairwise ns)
    ((unitsSorted_perm ms).trans (h.trans (unitsSorted_perm ns).symm))
  intro a b ha hb hab hba
  have hb' : b ∈ unitsSorted ms :=
    (unitsSorted_perm ms).mem_iff.mpr (h.mem_iff.mpr ((unitsSorted_perm ns).mem_iff.mp hb))
  exact List.inj_on_of_nodup_map hkeys ha hb' (utf16Units_injective (unitsLe_antisymm hab hba))

theorem entries_ofList_perm {ms : List (String × Json)} (h : (ms.map (·.1)).Nodup) :
    (Map.ofList ms).entries.Perm ms :=
  (List.perm_ext_iff_of_nodup (Map.nodup_keys _).of_map h.of_map).mpr fun _ =>
    Map.mem_entries_ofList h

theorem utf16Ordered_sorted {v : Json} (h : v.Unique) : v.sorted.utf16Ordered = v.utf16Ordered := by
  induction v using partsInduction with
  | null | bool | num | str => rfl
  | arr xs ih =>
    have hxs := itemsEverywhere_iff.mp h.2
    simp only [sorted, utf16Ordered, sortedItems_eq_map, utf16OrderedItems_eq_map, List.map_map,
      Json.arr.injEq]
    exact List.map_congr_left fun x hx => ih x hx (hxs x hx)
  | obj ms ih =>
    have hms := membersEverywhere_iff.mp h.2
    have hkeys : ((ms.map fun m => (m.1, m.2.sorted)).map (·.1)).Nodup := by
      simpa [Function.comp_def, KeysUnique] using h.1
    have hordered : ((ms.map fun m => (m.1, m.2.sorted)).map fun m => (m.1, m.2.utf16Ordered)) =
        ms.map fun m => (m.1, m.2.utf16Ordered) := by
      rw [List.map_map]
      exact List.map_congr_left fun m hm => by simp [ih m hm (hms m hm)]
    simp only [sorted, utf16Ordered, sortedMembers_eq_map, utf16OrderedMembers_eq_map,
      Json.obj.injEq]
    rw [← hordered]
    refine unitsSorted_eq ?_ ((entries_ofList_perm hkeys).map _)
    simpa [Function.comp_def] using Map.nodup_keys (Map.ofList (ms.map fun m => (m.1, m.2.sorted)))

theorem sorted_utf16Ordered {v : Json} (h : v.Unique) : v.utf16Ordered.sorted = v.sorted := by
  induction v using partsInduction with
  | null | bool | num | str => rfl
  | arr xs ih =>
    have hxs := itemsEverywhere_iff.mp h.2
    simp only [sorted, utf16Ordered, sortedItems_eq_map, utf16OrderedItems_eq_map, List.map_map,
      Json.arr.injEq]
    exact List.map_congr_left fun x hx => ih x hx (hxs x hx)
  | obj ms ih =>
    have hms := membersEverywhere_iff.mp h.2
    have hkeys : ((ms.map fun m => (m.1, m.2.sorted)).map (·.1)).Nodup := by
      simpa [Function.comp_def, KeysUnique] using h.1
    have hsorted : ((ms.map fun m => (m.1, m.2.utf16Ordered)).map fun m => (m.1, m.2.sorted)) =
        ms.map fun m => (m.1, m.2.sorted) := by
      rw [List.map_map]
      exact List.map_congr_left fun m hm => by simp [ih m hm (hms m hm)]
    have hperm := (unitsSorted_perm (ms.map fun m => (m.1, m.2.utf16Ordered))).map
      fun m => (m.1, m.2.sorted)
    rw [hsorted] at hperm
    simp only [sorted, utf16Ordered, sortedMembers_eq_map, utf16OrderedMembers_eq_map,
      Json.obj.injEq]
    congr 1
    refine Map.ofList_eq fun e => ?_
    rw [Map.mem_entries_ofList hkeys]
    exact hperm.mem_iff

-- ---------------------------------------------------------------------------
-- Rounding numbers
-- ---------------------------------------------------------------------------

theorem mapItemNumbers_eq_map (f : Number → Number) (xs : List Json) :
    mapItemNumbers f xs = xs.map (mapNumbers f) := by
  induction xs with
  | nil => rfl
  | cons x xs ih => simp [mapItemNumbers, ih]

theorem mapMemberNumbers_eq_map (f : Number → Number) (ms : List (String × Json)) :
    mapMemberNumbers f ms = ms.map fun m => (m.1, m.2.mapNumbers f) := by
  induction ms with
  | nil => rfl
  | cons m ms ih => simp [mapMemberNumbers, ih]

variable {f g h : Number → Number} {v w : Json}

theorem mapNumbers_mapNumbers (hfg : ∀ n, g (f n) = h n) (v : Json) :
    (v.mapNumbers f).mapNumbers g = v.mapNumbers h := by
  induction v using partsInduction with
  | null | bool | str => rfl
  | num n => simp [mapNumbers, hfg]
  | arr xs ih =>
    simp only [mapNumbers, mapItemNumbers_eq_map, List.map_map, Json.arr.injEq]
    exact List.map_congr_left ih
  | obj ms ih =>
    simp only [mapNumbers, mapMemberNumbers_eq_map, List.map_map, Json.obj.injEq]
    exact List.map_congr_left fun m hm => by simp [ih m hm]

theorem utf16Ordered_mapNumbers (f : Number → Number) (v : Json) :
    (v.mapNumbers f).utf16Ordered = v.utf16Ordered.mapNumbers f := by
  induction v using partsInduction with
  | null | bool | num | str => rfl
  | arr xs ih =>
    simp only [mapNumbers, utf16Ordered, mapItemNumbers_eq_map, utf16OrderedItems_eq_map,
      List.map_map, Json.arr.injEq]
    exact List.map_congr_left ih
  | obj ms ih =>
    simp only [mapNumbers, utf16Ordered, mapMemberNumbers_eq_map, utf16OrderedMembers_eq_map,
      Json.obj.injEq]
    rw [unitsSorted_map, List.map_map, List.map_map]
    congr 1
    exact List.map_congr_left fun m hm => by simp [ih m hm]

theorem sorted_mapNumbers (f : Number → Number) (v : Json) :
    (v.mapNumbers f).sorted = v.sorted.mapNumbers f := by
  induction v using partsInduction with
  | null | bool | num | str => rfl
  | arr xs ih =>
    simp only [mapNumbers, sorted, mapItemNumbers_eq_map, sortedItems_eq_map, List.map_map,
      Json.arr.injEq]
    exact List.map_congr_left ih
  | obj ms ih =>
    simp only [mapNumbers, sorted, mapMemberNumbers_eq_map, sortedMembers_eq_map, List.map_map,
      Json.obj.injEq]
    have hmembers : (ms.map fun m => (m.1, (m.2.mapNumbers f).sorted)) =
        ((ms.map fun m => (m.1, m.2.sorted)).map fun m => (m.1, m.2.mapNumbers f)) := by
      rw [List.map_map]
      exact List.map_congr_left fun m hm => by simp [ih m hm]
    simp only [Function.comp_def]
    rw [hmembers, Map.ofList_map]
    rfl

/-- The value with every number rounded to the nearest double, and without negative zero. -/
def rounded (v : Json) : Json := v.mapNumbers fun n => .double n.rounded

mutual
theorem chars_mapNumbers {number : Number → List Char} (hf : ∀ n, number (f n) = number n) :
    (v : Json) → (v.mapNumbers f).chars number = v.chars number
  | .null | .bool true | .bool false | .str _ => rfl
  | .num n => hf n
  | .arr xs => by simp [mapNumbers, chars, itemChars_mapNumbers hf xs]
  | .obj ms => by simp [mapNumbers, chars, memberChars_mapNumbers hf ms]
theorem itemChars_mapNumbers {number : Number → List Char} (hf : ∀ n, number (f n) = number n) :
    (xs : List Json) → itemChars number (mapItemNumbers f xs) = itemChars number xs
  | [] => rfl
  | [x] => chars_mapNumbers hf x
  | x :: y :: xs => by
    have hrest := itemChars_mapNumbers hf (y :: xs)
    simp only [mapItemNumbers] at hrest
    simp [mapItemNumbers, itemChars, chars_mapNumbers hf x, hrest]
theorem memberChars_mapNumbers {number : Number → List Char} (hf : ∀ n, number (f n) = number n) :
    (ms : List (String × Json)) → memberChars number (mapMemberNumbers f ms) = memberChars number ms
  | [] => rfl
  | [(k, v)] => by simp [mapMemberNumbers, memberChars, chars_mapNumbers hf v]
  | (k, v) :: (l, w) :: ms => by
    have hrest := memberChars_mapNumbers hf ((l, w) :: ms)
    simp only [mapMemberNumbers] at hrest
    simp [mapMemberNumbers, memberChars, chars_mapNumbers hf v, hrest]
end

theorem canonical_rounded (v : Json) : v.rounded.canonical = v.canonical := by
  have hnumber : ∀ n : Number, Number.canonical (.double n.rounded) = n.canonical := by
    intro n
    exact Number.canonical_congr (Double.unsigned_unsigned _)
  rw [canonical, rounded, utf16Ordered_mapNumbers, chars_mapNumbers hnumber, canonical]

theorem canonical_sorted {v : Json} (h : v.Unique) : v.sorted.canonical = v.canonical := by
  rw [canonical, utf16Ordered_sorted h, canonical]

def UnitsOrdered : Json → Prop
  | .obj ms => ms.Pairwise fun a b => unitsLe (utf16Units a.1) (utf16Units b.1)
  | _ => True

theorem utf16Ordered_eq_self {v : Json} (h : v.Everywhere UnitsOrdered) : v.utf16Ordered = v := by
  induction v using partsInduction with
  | null | bool | num | str => rfl
  | arr xs ih =>
    have hxs := itemsEverywhere_iff.mp h.2
    simp only [utf16Ordered, utf16OrderedItems_eq_map, Json.arr.injEq]
    exact (List.map_congr_left fun x hx => ih x hx (hxs x hx)).trans (List.map_id _)
  | obj ms ih =>
    have hms := membersEverywhere_iff.mp h.2
    have hmembers : ms.map (fun m => (m.1, m.2.utf16Ordered)) = ms :=
      (List.map_congr_left fun m hm => congrArg (m.1, ·) (ih m hm (hms m hm))).trans
        (List.map_id _)
    rw [utf16Ordered, utf16OrderedMembers_eq_map, hmembers, List.mergeSort_of_pairwise h.1]

/-- Sorted keys are mostly in the order of their units as well, and then nothing is left to sort. -/
theorem canonical_of_unitsOrdered {v : Json} (hv : v.Unique)
    (h : v.sorted.Everywhere UnitsOrdered) :
    v.canonical = String.ofList (v.sorted.chars Number.canonical) := by
  rw [← canonical_sorted hv, canonical, utf16Ordered_eq_self h]

theorem ofText_canonical (v : Json) : Draft.ofText v.canonical =
    (Draft.ofJson (v.utf16Ordered.mapNumbers Number.reread), none) := by
  have hnumbers : v.utf16Ordered.AllNumbers fun _ => True :=
    everywhere_of_forall (fun u => by cases u <;> trivial) _
  rw [canonical, chars_eq_laid, Draft.ofText_laid Draft.rereads_canonical hnumbers]

theorem rounded_reread (v : Json) : (v.mapNumbers Number.reread).rounded = v.rounded :=
  mapNumbers_mapNumbers (fun n => congrArg Number.double n.rounded_reread) v

theorem sorted_rounded (v : Json) : v.rounded.sorted = v.sorted.rounded := sorted_mapNumbers _ v

theorem rounded_of_canonical (hv : v.Unique) (hw : w.Unique) (h : v.canonical = w.canonical) :
    v.sorted.rounded = w.sorted.rounded := by
  have htext := (ofText_canonical v).symm.trans (h ▸ ofText_canonical w)
  have hordered : v.utf16Ordered.rounded = w.utf16Ordered.rounded := by
    rw [← rounded_reread, Draft.ofJson_injective (Prod.mk.inj htext).1, rounded_reread]
  rw [← sorted_utf16Ordered hv, ← sorted_rounded, hordered, sorted_rounded, sorted_utf16Ordered hw]

/-- Canonical text tells apart what differs by more than the rounding of numbers, and no more. -/
theorem canonical_eq_iff (hv : v.Unique) (hw : w.Unique) :
    v.canonical = w.canonical ↔ v.sorted.rounded = w.sorted.rounded := by
  refine ⟨rounded_of_canonical hv hw, fun h => ?_⟩
  rw [← canonical_sorted hv, ← canonical_rounded, h, canonical_rounded, canonical_sorted hw]

end Json

end ShellSettings
