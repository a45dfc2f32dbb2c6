import Mathlib.Algebra.Order.Field.Power
import Mathlib.Algebra.Order.Floor.Semifield
import Mathlib.Data.Int.Log
import Mathlib.Data.Rat.Floor
import Mathlib.Tactic.FieldSimp
import Mathlib.Tactic.Linarith
import Mathlib.Tactic.Positivity
import ShellSettings.Json.Double

/-!
# Rounding to binary64

What a quotient of naturals is rounded to depends on the rational number alone,
and so does what a decimal is rounded to. A number that is a double already is
rounded to itself.
-/

namespace ShellSettings.Double

-- ---------------------------------------------------------------------------
-- Rounding rationals
-- ---------------------------------------------------------------------------

def magnitude (d : Double) : ℚ := d.mantissa * 2 ^ d.scale

/-- The natural nearest to a rational, a tie going to the even neighbour. -/
def roundHalfEven (x : ℚ) : ℕ :=
  if x - ⌊x⌋₊ < 1 / 2 ∨ x - ⌊x⌋₊ = 1 / 2 ∧ ⌊x⌋₊ % 2 = 0 then ⌊x⌋₊ else ⌊x⌋₊ + 1

/-- The least exponent of a bit that a number of magnitude `x` keeps. -/
def lastBit (x : ℚ) : ℤ := max (Int.log 2 x - 52) (-1074)

/-- The number nearest to a magnitude, nothing when that is beyond the range. -/
def nearest (negative : Bool) (x : ℚ) : Option Double :=
  if x = 0 then some (zero negative)
  else
    let mantissa := roundHalfEven (x / 2 ^ lastBit x)
    if mantissa = 2 * fractionCount then ofParts negative fractionCount (lastBit x + 1)
    else ofParts negative mantissa (lastBit x)

theorem roundHalfEven_natCast (n : ℕ) : roundHalfEven n = n := by
  simp [roundHalfEven]

theorem roundQuotient_eq {num den : ℕ} (hden : 0 < den) :
    roundQuotient num den = roundHalfEven (num / den) := by
  have hpos : (0 : ℚ) < den := by exact_mod_cast hden
  have hrest : (num / den : ℚ) - (num / den : ℕ) = (num % den : ℕ) / den := by
    have hnum : (num : ℚ) = den * (num / den : ℕ) + (num % den : ℕ) := by
      exact_mod_cast (Nat.div_add_mod num den).symm
    field_simp
    linarith
  have hlt : 2 * (num % den) < den ↔ ((num % den : ℕ) / den : ℚ) < 1 / 2 := by
    rw [div_lt_iff₀ hpos, ← Nat.cast_lt (α := ℚ)]
    push_cast
    constructor <;> intro h <;> linarith
  have heq : 2 * (num % den) = den ↔ ((num % den : ℕ) / den : ℚ) = 1 / 2 := by
    rw [div_eq_iff hpos.ne', ← Nat.cast_inj (R := ℚ)]
    push_cast
    constructor <;> intro h <;> linarith
  simp only [roundQuotient, roundHalfEven, Nat.floor_div_eq_div, hrest, ← hlt, ← heq,
    Bool.or_eq_true, Bool.and_eq_true, beq_iff_eq, decide_eq_true_eq]

theorem descale_den_pos {num den : ℕ} (hden : 0 < den) (scale : ℤ) :
    0 < (descale num den scale).2 :=
  Nat.mul_pos hden (Nat.pow_pos (by decide))

theorem two_zpow_eq (scale : ℤ) :
    (2 : ℚ) ^ scale = (2 ^ scale.toNat : ℕ) / (2 ^ (-scale).toNat : ℕ) := by
  push_cast
  rw [← zpow_natCast, ← zpow_natCast, ← zpow_sub₀ (by norm_num)]
  congr 1
  omega

theorem descale_quotient (num den : ℕ) (scale : ℤ) :
    ((descale num den scale).1 / (descale num den scale).2 : ℚ) = num / den / 2 ^ scale := by
  simp only [descale, Nat.pow_eq, Nat.cast_mul, two_zpow_eq]
  rw [div_div_eq_mul_div, div_mul_eq_mul_div, div_div]

/-- The bit lengths of numerator and denominator give the leading bit of the quotient, up to one. -/
theorem log_quotient {num den : ℕ} (hnum : num ≠ 0) (hden : 0 < den) :
    Int.log 2 (num / den : ℚ) = num.log2 - den.log2 - 1 ∨
      Int.log 2 (num / den : ℚ) = num.log2 - den.log2 := by
  have hpos : (0 : ℚ) < num / den := by positivity
  have hd : (0 : ℚ) < den := by exact_mod_cast hden
  have hnumLow : (2 : ℚ) ^ (num.log2 : ℤ) ≤ num := by
    exact_mod_cast Nat.log2_self_le hnum
  have hnumHigh : (num : ℚ) < 2 ^ (num.log2 + 1 : ℤ) := by
    exact_mod_cast Nat.lt_log2_self (n := num)
  have hdenLow : (2 : ℚ) ^ (den.log2 : ℤ) ≤ den := by
    exact_mod_cast Nat.log2_self_le hden.ne'
  have hdenHigh : (den : ℚ) < 2 ^ (den.log2 + 1 : ℤ) := by
    exact_mod_cast Nat.lt_log2_self (n := den)
  have hlow : (num.log2 - den.log2 - 1 : ℤ) ≤ Int.log 2 (num / den : ℚ) := by
    rw [← Int.zpow_le_iff_le_log (by decide) hpos, le_div_iff₀ hd]
    calc ((2 : ℕ) : ℚ) ^ (num.log2 - den.log2 - 1 : ℤ) * den
        ≤ 2 ^ (num.log2 - den.log2 - 1 : ℤ) * 2 ^ (den.log2 + 1 : ℤ) :=
          mul_le_mul_of_nonneg_left hdenHigh.le (by positivity)
      _ = 2 ^ (num.log2 : ℤ) := by
          rw [← zpow_add₀ (by norm_num)]
          congr 1
          ring
      _ ≤ num := hnumLow
  have hhigh : Int.log 2 (num / den : ℚ) < num.log2 - den.log2 + 1 := by
    rw [← Int.lt_zpow_iff_log_lt (by decide) hpos, div_lt_iff₀ hd]
    calc (num : ℚ) < 2 ^ (num.log2 + 1 : ℤ) := hnumHigh
      _ = 2 ^ (num.log2 - den.log2 + 1 : ℤ) * 2 ^ (den.log2 : ℤ) := by
          rw [← zpow_add₀ (by norm_num)]
          congr 1
          ring
      _ ≤ ((2 : ℕ) : ℚ) ^ (num.log2 - den.log2 + 1 : ℤ) * den :=
          mul_le_mul_of_nonneg_left hdenLow (by positivity)
  omega

theorem descale_floor_lt {num den : ℕ} (hnum : num ≠ 0) (hden : 0 < den) (scale : ℤ) :
    (descale num den scale).1 / (descale num den scale).2 < 2 * fractionCount ↔
      Int.log 2 (num / den : ℚ) < scale + 53 := by
  have hpos : (0 : ℚ) < num / den := by positivity
  have hd : (0 : ℚ) < (descale num den scale).2 := by
    exact_mod_cast descale_den_pos hden scale
  rw [Nat.div_lt_iff_lt_mul (descale_den_pos hden scale), ← Nat.cast_lt (α := ℚ), Nat.cast_mul,
    ← div_lt_iff₀ hd, descale_quotient, div_lt_iff₀ (by positivity),
    ← Int.lt_zpow_iff_log_lt (by decide) hpos]
  have htwo : ((2 * fractionCount : ℕ) : ℚ) * 2 ^ scale = ((2 : ℕ) : ℚ) ^ (scale + 53) := by
    rw [Nat.cast_ofNat, zpow_add₀ (by norm_num)]
    norm_num [mul_comm]
  rw [htwo]

theorem ofRatio_eq_nearest (negative : Bool) {num den : ℕ} (hden : 0 < den) :
    ofRatio negative num den = nearest negative (num / den) := by
  have hd : (den : ℚ) ≠ 0 := by exact_mod_cast hden.ne'
  by_cases hnum : num = 0
  · simp [ofRatio, nearest, hnum]
  have hx : (num / den : ℚ) ≠ 0 := div_ne_zero (by exact_mod_cast hnum) hd
  have hscale : max (if (descale num den (num.log2 - den.log2 - 53)).1 /
      (descale num den (num.log2 - den.log2 - 53)).2 < 2 * fractionCount
      then (num.log2 - den.log2 - 53 : ℤ) else num.log2 - den.log2 - 53 + 1) (-1074) =
      lastBit (num / den) := by
    have hlog := log_quotient hnum hden
    simp only [descale_floor_lt hnum hden, lastBit]
    congr 1
    split <;> omega
  unfold ofRatio nearest
  simp only [if_neg hnum, if_neg hx]
  rw [hscale, roundQuotient_eq (descale_den_pos hden _), descale_quotient]

-- ---------------------------------------------------------------------------
-- Doubles are rounded to themselves
-- ---------------------------------------------------------------------------

theorem mantissa_lt (d : Double) : d.mantissa < 2 * fractionCount := by
  have := d.fraction.isLt
  unfold mantissa
  split <;> omega

theorem fractionCount_le_mantissa {d : Double} (h : d.exponent.val ≠ 0) :
    fractionCount ≤ d.mantissa := by
  simp [mantissa, h]

theorem isZero_iff_mantissa {d : Double} : d.isZero = true ↔ d.mantissa = 0 := by
  unfold isZero mantissa
  split <;> simp_all

theorem eq_zero_of_isZero {d : Double} (h : d.isZero = true) : d = zero d.negative := by
  obtain ⟨negative, exponent, fraction⟩ := d
  simp only [isZero, Bool.and_eq_true, beq_iff_eq] at h
  simp only [zero, Double.mk.injEq, true_and]
  exact ⟨Fin.ext h.1, Fin.ext h.2⟩

theorem magnitude_pos {d : Double} (h : d.isZero = false) : 0 < d.magnitude := by
  have hm : 0 < d.mantissa := by
    refine Nat.pos_of_ne_zero fun hm => ?_
    rw [isZero_iff_mantissa.mpr hm] at h
    cases h
  unfold magnitude
  positivity

theorem scale_ge (d : Double) : -1074 ≤ d.scale := by
  unfold scale
  omega

theorem scale_le (d : Double) : d.scale ≤ 971 := by
  have := d.exponent.isLt
  unfold scale
  omega

theorem lastBit_magnitude {d : Double} (h : d.isZero = false) : lastBit d.magnitude = d.scale := by
  have hpos := magnitude_pos h
  have hscale := d.scale_ge
  have hhigh : Int.log 2 d.magnitude < d.scale + 53 := by
    rw [← Int.lt_zpow_iff_log_lt (by decide) hpos, Nat.cast_ofNat, zpow_add₀ (by norm_num)]
    have hm : (d.mantissa : ℚ) < 2 ^ (53 : ℤ) := by exact_mod_cast d.mantissa_lt
    rw [magnitude, mul_comm]
    exact mul_lt_mul_of_pos_left hm (by positivity)
  unfold lastBit
  by_cases hexponent : d.exponent.val = 0
  · have : d.scale = -1074 := by simp [scale, hexponent]
    omega
  · have hlow : d.scale + 52 ≤ Int.log 2 d.magnitude := by
      rw [← Int.zpow_le_iff_le_log (by decide) hpos, Nat.cast_ofNat, zpow_add₀ (by norm_num)]
      have hm : (2 : ℚ) ^ (52 : ℤ) ≤ d.mantissa := by
        exact_mod_cast fractionCount_le_mantissa hexponent
      rw [magnitude, mul_comm (d.mantissa : ℚ)]
      exact mul_le_mul_of_nonneg_left hm (by positivity)
    omega

theorem ofParts_self (d : Double) : ofParts d.negative d.mantissa d.scale = some d := by
  obtain ⟨negative, ⟨exponent, hexponent⟩, ⟨fraction, hfraction⟩⟩ := d
  by_cases h : exponent = 0
  · subst h
    simp [ofParts, mantissa, hfraction, Nat.mod_eq_of_lt hfraction]
  · have hbiased : (scale ⟨negative, ⟨exponent, hexponent⟩, ⟨fraction, hfraction⟩⟩ + 1075).toNat =
        exponent := by
      simp only [scale]
      omega
    simp [ofParts, mantissa, h, hbiased, hexponent, Nat.mod_eq_of_lt hfraction]

theorem nearest_magnitude {d : Double} (h : d.isZero = false) :
    nearest d.negative d.magnitude = some d := by
  have hround : roundHalfEven (d.magnitude / 2 ^ d.scale) = d.mantissa := by
    rw [magnitude, mul_div_cancel_right₀ _ (by positivity), roundHalfEven_natCast]
  unfold nearest
  rw [if_neg (magnitude_pos h).ne']
  simp only [lastBit_magnitude h, hround]
  rw [if_neg d.mantissa_lt.ne, ofParts_self]

end ShellSettings.Double
