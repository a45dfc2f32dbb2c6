import ShellSettings.Json.Printer

/-!
# Canonical JSON text (RFC 8785)

Members stand in the order of their keys' UTF-16 code units, and every number is
written as the double nearest to it in the ECMAScript layout; so `1` and `1.0`
have one canonical text. All else is as in compact text.
-/

namespace ShellSettings

def utf16Units (s : String) : List Nat :=
  s.toList.flatMap fun c =>
    let n := c.toNat
    if n < 0x10000 then [n]
    else [0xd800 + (n - 0x10000) / 0x400, 0xdc00 + (n - 0x10000) % 0x400]

/-- Whether the first units come no later than the second, the first difference deciding. -/
def unitsLe : List Nat → List Nat → Bool
  | [], _ => true
  | _ :: _, [] => false
  | m :: ms, n :: ns => if m = n then unitsLe ms ns else m < n

namespace Number

def toDouble : Number → Double
  | .int i => (Double.ofRatio (i < 0) i.natAbs 1).getD (Double.zero false)
  | .double d => d

def canonical (n : Number) : List Char := Layout.ecmaScript.write n.toDouble

end Number

namespace Json

mutual
/-- The value with the members of every object in the order of their UTF-16 units. -/
def utf16Ordered : Json → Json
  | .arr xs => .arr (utf16OrderedItems xs)
  | .obj ms =>
    .obj ((utf16OrderedMembers ms).mergeSort fun a b => unitsLe (utf16Units a.1) (utf16Units b.1))
  | v => v
def utf16OrderedItems : List Json → List Json
  | [] => []
  | x :: xs => x.utf16Ordered :: utf16OrderedItems xs
def utf16OrderedMembers : List (String × Json) → List (String × Json)
  | [] => []
  | (k, v) :: ms => (k, v.utf16Ordered) :: utf16OrderedMembers ms
end

def canonical (v : Json) : String := String.ofList (v.utf16Ordered.chars Number.canonical)

end Json

end ShellSettings
