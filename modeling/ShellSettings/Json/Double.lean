/-!
# Finite binary64 numbers

A `Double` is the three bit fields of a finite IEEE 754 number, so it has no
infinities and no NaN, and two of them are equal exactly when their bits are.
Reading a decimal rounds once, to the nearest number and on a tie to the even
one, in exact arithmetic on naturals.
-/

namespace ShellSettings

abbrev Double.fractionCount : Nat := 0x10000000000000

/-- A finite IEEE 754 binary64 number by its fields. -/
structure Double where
  negative : Bool
  exponent : Fin 2047
  fraction : Fin Double.fractionCount
deriving DecidableEq, Repr

namespace Double

def mantissa (d : Double) : Nat :=
  if d.exponent.val = 0 then d.fraction.val else fractionCount + d.fraction.val

def scale (d : Double) : Int := (max d.exponent.val 1 : Nat) - 1075

def ratio (d : Double) : Nat × Nat :=
  (d.mantissa * Nat.pow 2 d.scale.toNat, Nat.pow 2 (-d.scale).toNat)

def zero (negative : Bool) : Double := ⟨negative, 0, 0⟩

def isZero (d : Double) : Bool := d.exponent.val == 0 && d.fraction.val == 0

def same (a b : Double) : Bool := a == b || (a.isZero && b.isZero)

/-- The number `mantissa * 2 ^ scale`, for a mantissa of 53 bits or, at the least scale,
fewer; nothing when the scale is beyond the range. -/
def ofParts (negative : Bool) (mantissa : Nat) (scale : Int) : Option Double :=
  let biased := if mantissa < fractionCount then 0 else (scale + 1075).toNat
  if h : biased < 2047 then
    some ⟨negative, ⟨biased, h⟩, ⟨mantissa % fractionCount, Nat.mod_lt _ (by decide)⟩⟩
  else none

/-- The natural nearest to `num / den`, a tie going to the even neighbour. -/
def roundQuotient (num den : Nat) : Nat :=
  let low := num / den
  let twice := 2 * (num % den)
  if twice < den || (twice == den && low % 2 == 0) then low else low + 1

/-- `num / den` divided by `2 ^ scale`, again as a quotient. -/
def descale (num den : Nat) (scale : Int) : Nat × Nat :=
  (num * Nat.pow 2 (-scale).toNat, den * Nat.pow 2 scale.toNat)

/-- The number nearest to `num / den`, nothing when that is beyond the range. -/
def ofRatio (negative : Bool) (num den : Nat) : Option Double :=
  if num = 0 then some (zero negative)
  else
    let guess : Int := (num.log2 : Int) - den.log2 - 53
    let (n, d) := descale num den guess
    let scale := max (if n / d < 2 * fractionCount then guess else guess + 1) (-1074)
    let (n, d) := descale num den scale
    let mantissa := roundQuotient n d
    if mantissa = 2 * fractionCount then ofParts negative fractionCount (scale + 1)
    else ofParts negative mantissa scale

def decimalLength (n : Nat) : Nat := (Nat.toDigits 10 n).length

/-- The number nearest to `digits * 10 ^ exponent`. Values of more than 310 digits before the
point are beyond the range, and those below `10 ^ -330` round to zero; neither needs its power
of ten. -/
def ofDecimal (negative : Bool) (digits : Nat) (exponent : Int) : Option Double :=
  if digits = 0 then some (zero negative)
  else
    let top := (decimalLength digits : Int) + exponent
    if 310 < top then none
    else if top < -330 then some (zero negative)
    else ofRatio negative (digits * Nat.pow 10 exponent.toNat) (Nat.pow 10 (-exponent).toNat)

end Double

end ShellSettings
