import ShellSettings.Json.Canonical
import ShellSettings.Json.Draft
import ShellSettings.Proofs.Json.DecimalLaws

/-!
# Numbers and their texts

The text of a number by its parts, how such a text is read, and that each layout
writes one. So a double that a layout writes is read back: as itself where the
layout keeps the point of a whole number, and else as a number whose nearest
double it is.
-/

namespace ShellSettings

open Draft

-- ---------------------------------------------------------------------------
-- Digits
-- ---------------------------------------------------------------------------

def AllDigits (cs : List Char) : Prop := ∀ c ∈ cs, c.isDigit = true

theorem AllDigits.append {ds es : List Char} (hds : AllDigits ds) (hes : AllDigits es) :
    AllDigits (ds ++ es) := fun c hc => (List.mem_append.mp hc).elim (hds c) (hes c)

theorem allDigits_toDigits (n : Nat) : AllDigits (Nat.toDigits 10 n) :=
  fun _ => Nat.isDigit_of_mem_toDigits (by decide) (by decide)

theorem allDigits_zeros (n : Nat) : AllDigits (List.replicate n '0') := by
  intro c hc
  rw [List.eq_of_mem_replicate hc]
  rfl

theorem digitsValue_eq (ds : List Char) : digitsValue ds = Nat.ofDigitChars 10 ds 0 := rfl

theorem digitsValue_toDigits (n : Nat) : digitsValue (Nat.toDigits 10 n) = n :=
  Nat.ofDigitChars_ten_toDigits

theorem digitsValue_zeros_append (n : Nat) (ds : List Char) :
    digitsValue (List.replicate n '0' ++ ds) = digitsValue ds := by
  simp [digitsValue_eq, Nat.ofDigitChars_append]

theorem digitsValue_append_zeros (ds : List Char) (n : Nat) :
    digitsValue (ds ++ List.replicate n '0') = digitsValue ds * 10 ^ n := by
  rw [digitsValue_eq, Nat.ofDigitChars_append, Nat.ofDigitChars_replicate_zero, Nat.mul_comm,
    digitsValue_eq]

theorem head?_toDigits {n : Nat} (h : n ≠ 0) : (Nat.toDigits 10 n).head? ≠ some '0' := by
  induction n using Nat.strongRecOn with
  | _ n ih =>
    rw [Nat.toDigits_eq_if (by decide)]
    split
    · simpa [Nat.digitChar_eq_zero] using h
    · rw [List.head?_append_of_ne_nil _ Nat.toDigits_ne_nil]
      exact ih (n / 10) (by omega) (by omega)

/-- What can follow a number: no character that a number could go on with. -/
def EndsNumber (rest : List Char) : Prop :=
  ∀ c ∈ rest.head?, c.isDigit = false ∧ c ≠ '.' ∧ c ≠ 'e' ∧ c ≠ 'E'

theorem endsNumber_nil : EndsNumber [] := by
  simp [EndsNumber]

theorem readDigits_append {ds rest : List Char} (hne : ds ≠ []) (hds : AllDigits ds)
    (hrest : ∀ c ∈ rest.head?, c.isDigit = false) : readDigits (ds ++ rest) = .ok (ds, rest) := by
  have htake : rest.takeWhile Char.isDigit = [] := by
    cases rest with
    | nil => rfl
    | cons c rest => simp [hrest c rfl]
  have hdrop : rest.dropWhile Char.isDigit = rest := by
    cases rest with
    | nil => rfl
    | cons c rest => simp [hrest c rfl]
  unfold readDigits
  rw [List.takeWhile_append_of_pos hds, List.dropWhile_append_of_pos hds, htake, hdrop,
    List.append_nil]
  cases ds with
  | nil => exact absurd rfl hne
  | cons d ds => rfl

-- ---------------------------------------------------------------------------
-- The parts of a number's text
-- ---------------------------------------------------------------------------

structure NumberText where
  whole : List Char
  -- The digits after the point, none if there is no point.
  fraction : List Char
  exponent : Option Int

namespace NumberText

def fractionChars (t : NumberText) : List Char :=
  if t.fraction = [] then [] else '.' :: t.fraction

def exponentChars (t : NumberText) : List Char :=
  match t.exponent with
  | none => []
  | some e => 'e' :: (if e < 0 then '-' else '+') :: Nat.toDigits 10 e.natAbs

def chars (t : NumberText) : List Char := t.whole ++ (t.fractionChars ++ t.exponentChars)

def value (t : NumberText) : ℚ :=
  digitsValue (t.whole ++ t.fraction) * 10 ^ (t.exponent.getD 0 - t.fraction.length : ℤ)

def IsInteger (t : NumberText) : Prop := t.fraction = [] ∧ t.exponent = none

instance (t : NumberText) : Decidable t.IsInteger := inferInstanceAs (Decidable (_ ∧ _))

/-- A text that the grammar of numbers allows: no zero leads another digit. -/
structure WellFormed (t : NumberText) : Prop where
  whole : AllDigits t.whole
  fraction : AllDigits t.fraction
  nonempty : t.whole ≠ []
  leading : t.whole = ['0'] ∨ t.whole.head? ≠ some '0'

def number (t : NumberText) (negative : Bool) : Option Number :=
  if t.IsInteger then integerNumber negative (digitsValue t.whole)
  else (Double.nearestDecimal negative t.value).map .double

variable {t : NumberText} {rest : List Char}

theorem readWhole_whole (ht : t.WellFormed) (hrest : ∀ c ∈ rest.head?, c.isDigit = false) :
    readWhole (t.whole ++ rest) = .ok (t.whole, rest) := by
  have hdigits := readDigits_append ht.nonempty ht.whole hrest
  obtain ⟨whole, fraction, exponent⟩ := t
  have hleading := ht.leading
  simp only at hdigits hleading
  simp only [readWhole, hdigits, bind, Except.bind]
  split
  · rename_i heq
    obtain ⟨rfl, -⟩ := Prod.mk.inj heq
    simp at hleading
  · rfl

theorem readFraction_fractionChars (ht : t.WellFormed)
    (hrest : ∀ c ∈ rest.head?, c.isDigit = false ∧ c ≠ '.') :
    readFraction (t.fractionChars ++ rest) =
      .ok (if t.fraction = [] then none else some t.fraction, rest) := by
  unfold fractionChars
  split
  · rw [List.nil_append]
    unfold readFraction
    split
    · rename_i cs
      exact absurd rfl (hrest '.' rfl).2
    · rfl
  · rename_i hne
    have hdigits := readDigits_append hne ht.fraction fun c hc => (hrest c hc).1
    simp [readFraction, hdigits, bind, Except.bind, pure, Except.pure]

theorem readSigned_digits (e : Int) (hrest : ∀ c ∈ rest.head?, c.isDigit = false) :
    readSigned ((if e < 0 then '-' else '+') :: Nat.toDigits 10 e.natAbs ++ rest) =
      .ok (e, rest) := by
  have hdigits := readDigits_append Nat.toDigits_ne_nil (allDigits_toDigits e.natAbs) hrest
  split
  · rename_i he
    simp [readSigned, hdigits, bind, Except.bind, pure, Except.pure, digitsValue_toDigits,
      abs_of_neg he]
  · rename_i he
    simp [readSigned, hdigits, bind, Except.bind, pure, Except.pure, digitsValue_toDigits,
      abs_of_nonneg (not_lt.mp he)]

theorem readExponent_exponentChars (hrest : EndsNumber rest) :
    readExponent (t.exponentChars ++ rest) = .ok (t.exponent, rest) := by
  unfold exponentChars
  cases t.exponent with
  | none =>
    simp only [List.nil_append]
    unfold readExponent
    split
    · exact absurd rfl (hrest 'e' rfl).2.2.1
    · exact absurd rfl (hrest 'E' rfl).2.2.2
    · rfl
  | some e =>
    have hsigned := readSigned_digits e fun c hc => (hrest c hc).1
    simp only [List.cons_append] at hsigned
    simp [readExponent, hsigned, bind, Except.bind, pure, Except.pure]

theorem exponentChars_head? (hrest : EndsNumber rest) :
    ∀ c ∈ (t.exponentChars ++ rest).head?, c.isDigit = false ∧ c ≠ '.' := by
  intro c hc
  unfold exponentChars at hc
  split at hc
  · exact ⟨(hrest c hc).1, (hrest c hc).2.1⟩
  · cases hc
    decide

theorem fractionChars_head? (hrest : EndsNumber rest) :
    ∀ c ∈ (t.fractionChars ++ (t.exponentChars ++ rest)).head?, c.isDigit = false := by
  intro c hc
  unfold fractionChars at hc
  split at hc
  · exact (exponentChars_head? hrest c hc).1
  · cases hc
    decide

theorem readNumber_chars (negative : Bool) (ht : t.WellFormed) (hrest : EndsNumber rest) :
    readNumber ((if negative then ['-'] else []) ++ t.chars ++ rest) =
      .ok (t.number negative, rest) := by
  have hwhole := readWhole_whole ht (fractionChars_head? (t := t) hrest)
  have hfraction := readFraction_fractionChars ht (exponentChars_head? (t := t) hrest)
  have hexponent := readExponent_exponentChars (t := t) hrest
  obtain ⟨c, cs, hc⟩ := List.exists_cons_of_ne_nil ht.nonempty
  have hunsigned : c ≠ '-' := by
    rintro rfl
    cases ht.whole '-' (by simp [hc])
  have htext : t.chars ++ rest = c :: (cs ++ (t.fractionChars ++ (t.exponentChars ++ rest))) := by
    simp [chars, hc]
  rw [hc, List.cons_append] at hwhole
  rw [List.append_assoc, htext]
  unfold readNumber
  split
  rename_i sign body hsign
  have hparts : sign = negative ∧
      body = c :: (cs ++ (t.fractionChars ++ (t.exponentChars ++ rest))) := by
    cases negative with
    | true =>
      cases hsign
      exact ⟨rfl, rfl⟩
    | false =>
      rw [if_neg Bool.false_ne_true, List.nil_append] at hsign
      split at hsign
      · rename_i heq
        exact absurd (List.cons.inj heq).1 hunsigned
      · cases hsign
        exact ⟨rfl, rfl⟩
  rw [hparts.1, hparts.2]
  simp only [hwhole, hfraction, hexponent, bind, Except.bind, pure, Except.pure, number, IsInteger,
    value, Double.ofDecimal_eq_nearestDecimal, hc]
  cases t.exponent <;> by_cases hf : t.fraction = [] <;> simp [hf]

end NumberText

-- ---------------------------------------------------------------------------
-- Layouts
-- ---------------------------------------------------------------------------

namespace Layout

variable {l : Layout} {ds : List Char}

theorem eq_dropTrailingZeros_append (ds : List Char) :
    ∃ n, ds = dropTrailingZeros ds ++ List.replicate n '0' := by
  have hzeros : ∀ c ∈ ds.reverse.takeWhile (· == '0'), c = '0' := fun c hc => by
    simpa using List.all_eq_true.mp List.all_takeWhile c hc
  refine ⟨(ds.reverse.takeWhile (· == '0')).length, ?_⟩
  calc ds = (ds.reverse.takeWhile (· == '0') ++ ds.reverse.dropWhile (· == '0')).reverse := by
        rw [List.takeWhile_append_dropWhile, List.reverse_reverse]
    _ = _ := by
        rw [List.reverse_append, List.eq_replicate_of_mem hzeros, List.reverse_replicate,
          List.length_replicate, dropTrailingZeros]

theorem zpow_of_append_zeros (ds : List Char) (n : ℕ) (e : ℤ) :
    (digitsValue (ds ++ List.replicate n '0') * 10 ^ e : ℚ) =
      digitsValue ds * 10 ^ (n + e : ℤ) := by
  rw [digitsValue_append_zeros, zpow_add₀ (by norm_num), zpow_natCast]
  push_cast
  ring

/-- Digits are placed so that the text has the value which the exponent of the first one says. -/
theorem exists_text_place (hds : AllDigits ds) (hne : ds ≠ []) (hhead : ds.head? ≠ some '0')
    (lead : ℤ) : ∃ t : NumberText, t.WellFormed ∧ t.chars = l.place ds lead ∧
      t.value = digitsValue ds * 10 ^ (lead + 1 - ds.length) ∧
      (l.keepsPoint = true → ¬ t.IsInteger) := by
  have hlength : 0 < ds.length := List.length_pos_iff.mpr hne
  unfold place
  split
  · rename_i hpositional
    split
    · -- A whole number of zero.
      rename_i hlead
      refine ⟨⟨['0'], List.replicate (-lead - 1).toNat '0' ++ ds, none⟩, ⟨?_, ?_, ?_, ?_⟩,
        ?_, ?_, ?_⟩
      · exact allDigits_zeros 1
      · exact (allDigits_zeros _).append hds
      · simp
      · exact .inl rfl
      · simp [NumberText.chars, NumberText.fractionChars, NumberText.exponentChars, hne]
      · have hzeros : ['0'] ++ (List.replicate (-lead - 1).toNat '0' ++ ds) =
            List.replicate ((-lead - 1).toNat + 1) '0' ++ ds := by
          simp [List.replicate_succ]
        simp only [NumberText.value, hzeros, digitsValue_zeros_append, Option.getD_none,
          List.length_append, List.length_replicate]
        congr 2
        omega
      · simp [NumberText.IsInteger, hne]
    · rename_i hlead
      simp only
      split
      · -- The point, if there is one, stands behind all digits.
        rename_i hshort
        have hwhole : (ds ++ List.replicate (lead.toNat + 1 - ds.length) '0').head? ≠ some '0' := by
          rwa [List.head?_append_of_ne_nil _ hne]
        cases hpoint : l.keepsPoint with
        | true =>
          refine ⟨⟨ds ++ List.replicate (lead.toNat + 1 - ds.length) '0', ['0'], none⟩,
            ⟨hds.append (allDigits_zeros _), allDigits_zeros 1, by simp [hne], .inr hwhole⟩,
            ?_, ?_, ?_⟩
          · simp [NumberText.chars, NumberText.fractionChars, NumberText.exponentChars]
          · have hzeros : ds ++ List.replicate (lead.toNat + 1 - ds.length) '0' ++ ['0'] =
                ds ++ List.replicate (lead.toNat + 1 - ds.length + 1) '0' := by
              simp [List.replicate_succ']
            simp only [NumberText.value, hzeros, zpow_of_append_zeros, Option.getD_none]
            congr 2
            simp
            omega
          · simp [NumberText.IsInteger]
        | false =>
          refine ⟨⟨ds ++ List.replicate (lead.toNat + 1 - ds.length) '0', [], none⟩,
            ⟨hds.append (allDigits_zeros _), nofun, by simp [hne], .inr hwhole⟩, ?_, ?_, nofun⟩
          · simp [NumberText.chars, NumberText.fractionChars, NumberText.exponentChars]
          · simp only [NumberText.value, List.append_nil, zpow_of_append_zeros, Option.getD_none]
            congr 2
            simp
            omega
      · -- The point stands among the digits.
        rename_i hlong
        have hdrop : ds.drop (lead.toNat + 1) ≠ [] := by simpa using hlong
        refine ⟨⟨ds.take (lead.toNat + 1), ds.drop (lead.toNat + 1), none⟩,
          ⟨fun c hc => hds c (List.mem_of_mem_take hc), fun c hc => hds c (List.mem_of_mem_drop hc),
            by simp [hne], .inr (by rwa [List.head?_take, if_neg (by omega)])⟩, ?_, ?_, ?_⟩
        · simp [NumberText.chars, NumberText.fractionChars, NumberText.exponentChars, hdrop]
        · simp only [NumberText.value, List.take_append_drop, Option.getD_none, List.length_drop]
          congr 2
          omega
        · simp [NumberText.IsInteger, hdrop]
  · refine ⟨⟨ds.take 1, ds.drop 1, some lead⟩, ⟨fun c hc => hds c (List.mem_of_mem_take hc),
      fun c hc => hds c (List.mem_of_mem_drop hc), by simp [hne],
      .inr (by rwa [List.head?_take, if_neg (by omega)])⟩, ?_, ?_, ?_⟩
    · simp only [NumberText.chars, NumberText.fractionChars, NumberText.exponentChars,
        List.drop_eq_nil_iff, List.append_assoc]
      rfl
    · simp only [NumberText.value, List.take_append_drop, Option.getD_some, List.length_drop]
      congr 2
      omega
    · simp [NumberText.IsInteger]

theorem exists_text_write {d : Double} (h : d.isZero = false) :
    ∃ t : NumberText, t.WellFormed ∧ l.write d = (if d.negative then ['-'] else []) ++ t.chars ∧
      Double.nearestDecimal d.negative t.value = some d ∧
      (l.keepsPoint = true → ¬ t.IsInteger) := by
  have hnonzero := Double.shortest_digits_ne_zero h
  have hdigits := allDigits_toDigits d.shortest.digits
  have hhead := head?_toDigits hnonzero
  have hvalue := digitsValue_toDigits d.shortest.digits
  obtain ⟨n, hn⟩ := eq_dropTrailingZeros_append (Nat.toDigits 10 d.shortest.digits)
  generalize hds : dropTrailingZeros (Nat.toDigits 10 d.shortest.digits) = ds at hn
  have hne : ds ≠ [] := by
    rintro rfl
    rw [hn] at hvalue
    exact hnonzero (by rw [← hvalue, digitsValue_append_zeros]; simp [digitsValue])
  rw [hn] at hdigits hhead hvalue
  rw [List.head?_append_of_ne_nil _ hne] at hhead
  obtain ⟨t, ht, hchars, htext, hpoint⟩ := exists_text_place (l := l)
    (fun c hc => hdigits c (List.mem_append_left _ hc)) hne hhead
    (d.shortest.exponent + (Nat.toDigits 10 d.shortest.digits).length - 1)
  refine ⟨t, ht, ?_, ?_, hpoint⟩
  · simp [write, h, hds, hchars]
  · have hsame : t.value = d.shortest.value := by
      rw [htext, hn, Decimal.value, ← hvalue, zpow_of_append_zeros]
      congr 2
      simp
      omega
    rw [hsame, Double.nearestDecimal_shortest h]

end Layout

-- ---------------------------------------------------------------------------
-- Reading what was written
-- ---------------------------------------------------------------------------

theorem NumberText.wellFormed_digits (n : Nat) :
    (⟨Nat.toDigits 10 n, [], none⟩ : NumberText).WellFormed where
  whole := allDigits_toDigits n
  fraction := nofun
  nonempty := Nat.toDigits_ne_nil
  leading := by
    by_cases h : n = 0
    · exact .inl (by rw [h]; rfl)
    · exact .inr (head?_toDigits h)

theorem NumberText.chars_digits (n : Nat) :
    (⟨Nat.toDigits 10 n, [], none⟩ : NumberText).chars = Nat.toDigits 10 n := by
  simp [chars, fractionChars, exponentChars]

theorem readNumber_double (d : Double) {rest : List Char} (hrest : EndsNumber rest) :
    readNumber (Layout.json.write d ++ rest) = .ok (some (.double d), rest) := by
  cases h : d.isZero with
  | true =>
    have ht : (⟨['0'], ['0'], none⟩ : NumberText).WellFormed :=
      ⟨allDigits_zeros 1, allDigits_zeros 1, by simp, .inl rfl⟩
    have hchars : Layout.json.write d =
        (if d.negative then ['-'] else []) ++ (⟨['0'], ['0'], none⟩ : NumberText).chars := by
      simp [Layout.write, h, Layout.json, NumberText.chars, NumberText.fractionChars,
        NumberText.exponentChars]
    rw [hchars, NumberText.readNumber_chars d.negative ht hrest]
    simp [NumberText.number, NumberText.IsInteger, NumberText.value, digitsValue,
      Double.nearestDecimal, ← Double.eq_zero_of_isZero h]
  | false =>
    obtain ⟨t, ht, hchars, hvalue, hpoint⟩ := Layout.exists_text_write (l := .json) h
    rw [hchars, NumberText.readNumber_chars d.negative ht hrest, NumberText.number,
      if_neg (hpoint rfl), hvalue]
    rfl

namespace Number

/-- A number that the text of a document can hold: a double, or an integer of one word. -/
def Exact : Number → Prop
  | .int i => -signedLimit ≤ i ∧ i < wordLimit
  | .double _ => True

theorem readNumber_write {n : Number} (hn : n.Exact) {rest : List Char} (hrest : EndsNumber rest) :
    readNumber (n.write .json ++ rest) = .ok (some n, rest) := by
  cases n with
  | double d => exact readNumber_double d hrest
  | int i =>
    have hread := NumberText.readNumber_chars (decide (i < 0))
      (NumberText.wellFormed_digits i.natAbs) hrest
    rw [NumberText.chars_digits] at hread
    have hvalue : (if i < 0 then -(i.natAbs : Int) else i.natAbs) = i := by
      split <;> omega
    have hnumber : integerNumber (decide (i < 0)) i.natAbs = some (.int i) := by
      have hpositive : ¬ (i < 0 ∧ i = 0) := by omega
      simp only [integerNumber, decide_eq_true_eq, hvalue]
      simp [hpositive, hn.1, hn.2]
    simpa [write, NumberText.number, NumberText.IsInteger, digitsValue_toDigits, hnumber]
      using hread

end Number

-- ---------------------------------------------------------------------------
-- Canonical numbers
-- ---------------------------------------------------------------------------

def Double.unsigned (d : Double) : Double := if d.isZero then .zero false else d

theorem Double.unsigned_unsigned (d : Double) : d.unsigned.unsigned = d.unsigned := by
  unfold unsigned
  cases h : d.isZero with
  | true => rfl
  | false => simp [h]

namespace Number

/-- A number that canonical texts cannot tell from others with the same nearest double. -/
def rounded (n : Number) : Double := n.toDouble.unsigned

theorem toDouble_int (i : Int) :
    (Number.int i).toDouble = (Double.nearest (decide (i < 0)) i.natAbs).getD (.zero false) := by
  simp [toDouble, Double.ofRatio_eq_nearest _ Nat.one_pos]

theorem integerNumber_eq {negative : Bool} {v : Nat} {i : Int} (hv : v ≠ 0)
    (hi : (if negative then -(v : Int) else v) = i) :
    integerNumber negative v = if -signedLimit ≤ i ∧ i < wordLimit then some (.int i)
      else (Double.nearestDecimal negative v).map .double := by
  have hpositive : (negative && v == 0) = false := by simp [hv]
  simp only [integerNumber, hpositive, hi, Double.ofDecimal_eq_nearestDecimal, zpow_zero, mul_one]
  rw [if_neg Bool.false_ne_true]

theorem exists_number {t : NumberText} {d : Double} (hzero : d.isZero = false)
    (h : Double.nearestDecimal d.negative t.value = some d) :
    ∃ n, t.number d.negative = some n ∧ n.toDouble = d := by
  unfold NumberText.number
  split
  · rename_i hinteger
    have hvalue : t.value = digitsValue t.whole := by
      simp [NumberText.value, hinteger.1, hinteger.2]
    rw [hvalue] at h
    generalize digitsValue t.whole = v at h
    have hv : v ≠ 0 := by
      rintro rfl
      simp only [Double.nearestDecimal, Nat.cast_zero, if_true, Option.some.injEq] at h
      rw [← h] at hzero
      cases hzero
    have hnearest := Double.nearest_of_nearestDecimal hzero h
    rw [integerNumber_eq hv rfl, h]
    generalize hi : (if d.negative then -(v : Int) else v) = i
    split
    · have hsign : decide (i < 0) = d.negative := by
        cases hd : d.negative with
        | true =>
          rw [hd, if_pos rfl] at hi
          simp
          omega
        | false =>
          rw [hd, if_neg Bool.false_ne_true] at hi
          simp
          omega
      have hmagnitude : i.natAbs = v := by
        split at hi <;> omega
      exact ⟨_, rfl, by rw [toDouble_int, hsign, hmagnitude, hnearest, Option.getD_some]⟩
    · exact ⟨_, rfl, rfl⟩
  · exact ⟨.double d, by simp [h], rfl⟩

theorem exists_readNumber_canonical (n : Number) :
    ∃ m : Number, m.rounded = n.rounded ∧ ∀ rest, EndsNumber rest →
      readNumber (n.canonical ++ rest) = .ok (some m, rest) := by
  unfold canonical
  cases h : n.toDouble.isZero with
  | true =>
    refine ⟨.int 0, ?_, fun rest hrest => ?_⟩
    · simp [rounded, Double.unsigned, h]
      decide
    · have hread := NumberText.readNumber_chars false (NumberText.wellFormed_digits 0) hrest
      have hchars : Layout.ecmaScript.write n.toDouble = Nat.toDigits 10 0 := by
        simp [Layout.write, h, Layout.ecmaScript]
      have hnumber : (⟨Nat.toDigits 10 0, [], none⟩ : NumberText).number false = some (.int 0) := by
        simp [NumberText.number, NumberText.IsInteger, digitsValue, integerNumber, signedLimit,
          wordLimit]
      rw [NumberText.chars_digits, hnumber] at hread
      rw [hchars]
      exact hread
  | false =>
    obtain ⟨t, ht, hchars, hvalue, -⟩ := Layout.exists_text_write (l := .ecmaScript) h
    obtain ⟨m, hm, hdouble⟩ := exists_number h hvalue
    refine ⟨m, by rw [rounded, hdouble, rounded], fun rest hrest => ?_⟩
    rw [hchars, NumberText.readNumber_chars _ ht hrest, hm]

def reread (n : Number) : Number :=
  match readNumber n.canonical with
  | .ok (some m, _) => m
  | _ => n

theorem readNumber_canonical (n : Number) {rest : List Char} (hrest : EndsNumber rest) :
    readNumber (n.canonical ++ rest) = .ok (some n.reread, rest) := by
  obtain ⟨m, -, hm⟩ := n.exists_readNumber_canonical
  have hself := hm [] endsNumber_nil
  rw [List.append_nil] at hself
  rw [reread, hself]
  exact hm rest hrest

theorem rounded_reread (n : Number) : n.reread.rounded = n.rounded := by
  obtain ⟨m, hm, hread⟩ := n.exists_readNumber_canonical
  have hself := hread [] endsNumber_nil
  rw [List.append_nil] at hself
  rw [reread, hself]
  exact hm

theorem canonical_congr {m n : Number} (h : m.rounded = n.rounded) : m.canonical = n.canonical := by
  have hunsigned : ∀ d : Double,
      Layout.ecmaScript.write d.unsigned = Layout.ecmaScript.write d := by
    intro d
    unfold Double.unsigned
    split
    · rename_i hzero
      have hz : (Double.zero false).isZero = true := rfl
      simp [Layout.write, hzero, hz, Layout.ecmaScript]
    · rfl
  rw [canonical, ← hunsigned, ← rounded, h, rounded, hunsigned, canonical]

end Number

end ShellSettings
