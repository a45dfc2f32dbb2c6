import ShellSettings.Json.Decimal
import ShellSettings.Proofs.Json.DoubleLaws

/-!
# Decimals of binary64 numbers

A decimal is read by its value alone, so digits can be moved across the point
and zeros added or dropped at the end. The shortest decimal of a number reads
back as the number.
-/

namespace ShellSettings

def Decimal.value (c : Decimal) : ℚ := c.digits * 10 ^ c.exponent

namespace Double

def nearestDecimal (negative : Bool) (x : ℚ) : Option Double :=
  if x = 0 then some (zero negative)
  else if 310 < Int.log 10 x + 1 then none
  else if Int.log 10 x + 1 < -330 then some (zero negative)
  else nearest negative x

theorem log_decimal {digits : ℕ} (h : digits ≠ 0) (exponent : ℤ) :
    Int.log 10 (digits * 10 ^ exponent : ℚ) + 1 = decimalLength digits + exponent := by
  have hpos : (0 : ℚ) < digits * 10 ^ exponent := by positivity
  have hlength : 0 < decimalLength digits := Nat.length_toDigits_pos
  have hhigh : (digits : ℚ) < 10 ^ (decimalLength digits : ℤ) := by
    exact_mod_cast (Nat.length_toDigits_le_iff (by decide) hlength).mp le_rfl
  have hlow : (10 : ℚ) ^ (decimalLength digits - 1 : ℤ) ≤ digits := by
    rw [← Nat.cast_pred hlength, zpow_natCast]
    norm_cast
    rcases Nat.eq_zero_or_pos (decimalLength digits - 1) with hone | hmore
    · rw [hone]
      exact Nat.one_le_iff_ne_zero.mpr h
    · by_contra hlt
      have := (Nat.length_toDigits_le_iff (b := 10) (by decide) hmore).mpr (not_le.mp hlt)
      unfold decimalLength at this hlength
      omega
  have hbelow : Int.log 10 (digits * 10 ^ exponent : ℚ) < decimalLength digits + exponent := by
    rw [← Int.lt_zpow_iff_log_lt (by decide) hpos, Nat.cast_ofNat, zpow_add₀ (by norm_num)]
    exact mul_lt_mul_of_pos_right hhigh (by positivity)
  have habove : decimalLength digits - 1 + exponent ≤ Int.log 10 (digits * 10 ^ exponent : ℚ) := by
    rw [← Int.zpow_le_iff_le_log (by decide) hpos, Nat.cast_ofNat, zpow_add₀ (by norm_num)]
    exact mul_le_mul_of_nonneg_right hlow (by positivity)
  omega

theorem ten_zpow_eq (exponent : ℤ) :
    (10 : ℚ) ^ exponent = (10 ^ exponent.toNat : ℕ) / (10 ^ (-exponent).toNat : ℕ) := by
  push_cast
  rw [← zpow_natCast, ← zpow_natCast, ← zpow_sub₀ (by norm_num)]
  congr 1
  omega

theorem ofDecimal_eq_nearestDecimal (negative : Bool) (digits : ℕ) (exponent : ℤ) :
    ofDecimal negative digits exponent = nearestDecimal negative (digits * 10 ^ exponent) := by
  by_cases h : digits = 0
  · simp [ofDecimal, nearestDecimal, h]
  have hx : (digits * 10 ^ exponent : ℚ) ≠ 0 := by positivity
  have hden : 0 < Nat.pow 10 (-exponent).toNat := Nat.pow_pos (by decide)
  have hvalue :
      ((digits * Nat.pow 10 exponent.toNat : ℕ) / (Nat.pow 10 (-exponent).toNat : ℕ) : ℚ) =
        digits * 10 ^ exponent := by
    rw [Nat.pow_eq, Nat.pow_eq, ten_zpow_eq, Nat.cast_mul, mul_div_assoc]
  simp only [ofDecimal, nearestDecimal, if_neg h, if_neg hx, log_decimal h]
  rw [ofRatio_eq_nearest negative hden, hvalue]

theorem nearestDecimal_magnitude {d : Double} (h : d.isZero = false) :
    nearestDecimal d.negative d.magnitude = some d := by
  have hpos := magnitude_pos h
  have hscale := d.scale_ge
  have hlow : -331 ≤ Int.log 10 d.magnitude := by
    rw [← Int.zpow_le_iff_le_log (by decide) hpos]
    have hone : (1 : ℚ) ≤ d.mantissa := by
      refine Nat.one_le_cast.mpr (Nat.one_le_iff_ne_zero.mpr fun hm => ?_)
      rw [isZero_iff_mantissa.mpr hm] at h
      cases h
    have hpow : (2 : ℕ) ^ 1074 ≤ 10 ^ 331 := by decide +kernel
    calc ((10 : ℕ) : ℚ) ^ (-331 : ℤ) ≤ 2 ^ (-1074 : ℤ) := by
          rw [zpow_neg, zpow_neg]
          exact inv_anti₀ (by positivity) (by exact_mod_cast hpow)
      _ ≤ 1 * 2 ^ d.scale := by
          rw [one_mul]
          exact zpow_le_zpow_right₀ (by norm_num) hscale
      _ ≤ d.magnitude := mul_le_mul_of_nonneg_right hone (by positivity)
  have hhigh : Int.log 10 d.magnitude < 310 := by
    rw [← Int.lt_zpow_iff_log_lt (by decide) hpos]
    have hm : (d.mantissa : ℚ) < 2 ^ (53 : ℤ) := by exact_mod_cast d.mantissa_lt
    have hpow : (2 : ℕ) ^ 53 * 2 ^ 971 ≤ 10 ^ 310 := by decide +kernel
    calc d.magnitude < 2 ^ (53 : ℤ) * 2 ^ d.scale := mul_lt_mul_of_pos_right hm (by positivity)
      _ ≤ 2 ^ (53 : ℤ) * 2 ^ (971 : ℤ) :=
          mul_le_mul_of_nonneg_left (zpow_le_zpow_right₀ (by norm_num) d.scale_le) (by positivity)
      _ ≤ ((10 : ℕ) : ℚ) ^ (310 : ℤ) := by exact_mod_cast hpow
  unfold nearestDecimal
  rw [if_neg hpos.ne', if_neg (by omega), if_neg (by omega), nearest_magnitude h]

/-- What is not rounded to zero on account of its size is rounded as any magnitude. -/
theorem nearest_of_nearestDecimal {negative : Bool} {x : ℚ} {d : Double}
    (hzero : d.isZero = false) (h : nearestDecimal negative x = some d) :
    nearest negative x = some d := by
  have hnot : zero negative ≠ d := by
    rintro rfl
    cases hzero
  unfold nearestDecimal at h
  split at h
  · exact absurd (Option.some.inj h) hnot
  · split at h
    · cases h
    · split at h
      · exact absurd (Option.some.inj h) hnot
      · exact h

theorem exactDecimal_value (d : Double) : d.exactDecimal.value = d.magnitude := by
  have hscale : (10 : ℚ) ^ min d.scale 0 = 5 ^ min d.scale 0 * 2 ^ min d.scale 0 := by
    rw [← mul_zpow]
    norm_num
  have hfive : (5 : ℚ) ^ (-d.scale).toNat * 5 ^ min d.scale 0 = 1 := by
    rw [← zpow_natCast, ← zpow_add₀ (by norm_num)]
    rw [show ((-d.scale).toNat : ℤ) + min d.scale 0 = 0 by omega, zpow_zero]
  have htwo : (2 : ℚ) ^ d.scale.toNat * 2 ^ min d.scale 0 = 2 ^ d.scale := by
    rw [← zpow_natCast, ← zpow_add₀ (by norm_num)]
    congr 1
    omega
  simp only [Decimal.value, exactDecimal, magnitude, Nat.pow_eq]
  push_cast
  calc (d.mantissa * 2 ^ d.scale.toNat * 5 ^ (-d.scale).toNat * 10 ^ min d.scale 0 : ℚ)
      = d.mantissa * (2 ^ d.scale.toNat * 2 ^ min d.scale 0) *
          (5 ^ (-d.scale).toNat * 5 ^ min d.scale 0) := by rw [hscale]; ring
    _ = d.mantissa * 2 ^ d.scale := by rw [hfive, htwo, mul_one]

theorem readsBack_iff {d : Double} {c : Decimal} :
    d.readsBack c = true ↔ nearestDecimal d.negative c.value = some d := by
  rw [readsBack, beq_iff_eq, ofDecimal_eq_nearestDecimal, Decimal.value]

theorem readsBack_shortest {d : Double} (h : d.isZero = false) : d.readsBack d.shortest = true := by
  unfold shortest
  simp only
  cases hfind : (List.range 17).findSome? _ with
  | none =>
    rw [Option.getD_none, readsBack_iff, exactDecimal_value]
    exact nearestDecimal_magnitude h
  | some c =>
    obtain ⟨places, -, hc⟩ := List.exists_of_findSome?_eq_some hfind
    exact List.find?_some hc

theorem nearestDecimal_shortest {d : Double} (h : d.isZero = false) :
    nearestDecimal d.negative d.shortest.value = some d :=
  readsBack_iff.mp (readsBack_shortest h)

theorem shortest_digits_ne_zero {d : Double} (h : d.isZero = false) : d.shortest.digits ≠ 0 := by
  intro hdigits
  have hread := nearestDecimal_shortest h
  simp only [Decimal.value, hdigits, Nat.cast_zero, zero_mul, nearestDecimal, if_true,
    Option.some.injEq] at hread
  rw [← hread] at h
  cases h

end Double

end ShellSettings
