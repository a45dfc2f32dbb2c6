import ShellSettings.Json.Double

/-!
# Shortest decimal text of a binary64 number

`Double.shortest` has the fewest digits that read back as the number, and among
those the nearest; an exact tie goes to the even digit. A `Layout` says how such
digits are laid out as text; the JSON and the canonical form differ in it alone.
-/

namespace ShellSettings

/-- The decimal `digits * 10 ^ exponent`. -/
structure Decimal where
  digits : Nat
  exponent : Int
deriving DecidableEq, Repr

namespace Double

def leadingExponent (num den : Nat) : Int :=
  if den ≤ num then (decimalLength (num / den) : Int) - 1
  else
    let length := decimalLength (den / num)
    if Nat.pow 10 (length - 1) * num = den then 1 - (length : Int) else -(length : Int)

/-- The neighbours of `num / den` among the multiples of `10 ^ exponent`, the nearer first. -/
def neighbours (num den : Nat) (exponent : Int) : List Decimal :=
  let n := num * Nat.pow 10 (-exponent).toNat
  let d := den * Nat.pow 10 exponent.toNat
  let low : Decimal := ⟨n / d, exponent⟩
  let high : Decimal := ⟨n / d + 1, exponent⟩
  let twice := 2 * (n % d)
  if n % d = 0 then [low]
  else if twice < d || (twice == d && (n / d) % 2 == 0) then [low, high]
  else [high, low]

def readsBack (d : Double) (c : Decimal) : Bool :=
  ofDecimal d.negative c.digits c.exponent == some d

def exactDecimal (d : Double) : Decimal :=
  ⟨d.mantissa * Nat.pow 2 d.scale.toNat * Nat.pow 5 (-d.scale).toNat, min d.scale 0⟩

/-- The shortest decimal that reads back. Seventeen digits are enough for every number. -/
def shortest (d : Double) : Decimal :=
  let (num, den) := d.ratio
  let lead := leadingExponent num den
  ((List.range 17).findSome? fun (places : Nat) =>
    (neighbours num den (lead - places)).find? d.readsBack).getD d.exactDecimal

end Double

structure Layout where
  -- The least exponent of the leading digit that is written positionally.
  lowest : Int
  -- The first exponent above that is not.
  above : Int
  -- Whether a whole number keeps a point and a zero.
  keepsPoint : Bool
  -- Whether negative zero keeps its sign.
  signsZero : Bool

namespace Layout

/-- JSON documents: always a point or an exponent, so that a double stays one. -/
def json : Layout := ⟨-5, 16, true, true⟩

/-- The canonical form writes numbers as ECMAScript does. -/
def ecmaScript : Layout := ⟨-6, 21, false, false⟩

def dropTrailingZeros (digits : List Char) : List Char :=
  (digits.reverse.dropWhile (· == '0')).reverse

/-- The digits `ds`, the first of which has exponent `lead`. -/
def place (l : Layout) (ds : List Char) (lead : Int) : List Char :=
  if l.lowest ≤ lead ∧ lead < l.above then
    if lead < 0 then
      ['0', '.'] ++ List.replicate (-lead - 1).toNat '0' ++ ds
    else
      let whole := lead.toNat + 1
      if ds.length ≤ whole then
        ds ++ List.replicate (whole - ds.length) '0' ++ (if l.keepsPoint then ['.', '0'] else [])
      else ds.take whole ++ ['.'] ++ ds.drop whole
  else
    let sign := if lead < 0 then '-' else '+'
    ds.take 1 ++ (if ds.length ≤ 1 then [] else '.' :: ds.drop 1) ++
      ['e', sign] ++ Nat.toDigits 10 lead.natAbs

def write (l : Layout) (d : Double) : List Char :=
  if d.isZero then
    (if d.negative && l.signsZero then ['-'] else []) ++
      ['0'] ++ (if l.keepsPoint then ['.', '0'] else [])
  else
    let c := d.shortest
    let ds := Nat.toDigits 10 c.digits
    (if d.negative then ['-'] else []) ++
      l.place (dropTrailingZeros ds) (c.exponent + ds.length - 1)

end Layout

end ShellSettings
