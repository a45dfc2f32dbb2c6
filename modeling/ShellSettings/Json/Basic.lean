import ShellSettings.Json.Decimal
import ShellSettings.Map

/-!
# JSON values

An object keeps its members in the order in which they stand, repetitions
included, because reading a record depends on that order. As a *value* an object
is its `sorted` form: keys in increasing order, of a repeated key the last
member. Free-form parts of a settings document are always held sorted.
-/

namespace ShellSettings

/-- A JSON number. Integers are exact and never equal to a double. -/
inductive Number where
  | int (i : Int)
  | double (d : Double)
deriving DecidableEq, Repr

/-- Two to the 63: from here on an integer is no signed word. -/
def Number.signedLimit : Int := 0x8000000000000000

/-- Two to the 64: from here on an integer is no word at all. -/
def Number.wordLimit : Int := 0x10000000000000000

/-- Equality of numbers, for which the two zeros of a double are one. -/
def Number.same : Number → Number → Bool
  | .int i, .int j => i == j
  | .double d, .double e => d.same e
  | _, _ => false

inductive Json where
  | null
  | bool (b : Bool)
  | num (n : Number)
  | str (s : String)
  | arr (items : List Json)
  | obj (members : List (String × Json))
deriving Repr, Inhabited

/-- Free-form settings: an object whose keys nobody here interprets. -/
abbrev Blob := Map Json

namespace Json

def int (i : Int) : Json := .num (.int i)

def ofMap (m : Blob) : Json := .obj m.entries

def ofStrings (xs : List String) : Json := .arr (xs.map .str)

def ofOption : Option String → Json
  | none => .null
  | some s => .str s

def kind : Json → String
  | .null => "null"
  | .bool _ => "boolean"
  | .num _ => "number"
  | .str _ => "string"
  | .arr _ => "array"
  | .obj _ => "object"

def get? (key : String) : Json → Option Json
  | .obj members => members.lookup key
  | _ => none

def string? : Json → Option String
  | .str s => some s
  | _ => none

def bool? : Json → Option Bool
  | .bool b => some b
  | _ => none

def word64? : Json → Option Nat
  | .num (.int i) => if 0 ≤ i ∧ i < Number.wordLimit then some i.toNat else none
  | _ => none

mutual
/-- Equality of values, in which `0.0` and `-0.0` are equal. -/
def same : Json → Json → Bool
  | .null, .null => true
  | .bool a, .bool b => a == b
  | .num a, .num b => a.same b
  | .str a, .str b => a == b
  | .arr xs, .arr ys => sameItems xs ys
  | .obj ms, .obj ns => sameMembers ms ns
  | _, _ => false
def sameItems : List Json → List Json → Bool
  | [], [] => true
  | x :: xs, y :: ys => x.same y && sameItems xs ys
  | _, _ => false
def sameMembers : List (String × Json) → List (String × Json) → Bool
  | [], [] => true
  | (k, v) :: ms, (l, w) :: ns => k == l && v.same w && sameMembers ms ns
  | _, _ => false
end

mutual
/-- The value with every object in key order; of a repeated key the last member stays. -/
def sorted : Json → Json
  | .arr xs => .arr (sortedItems xs)
  | .obj ms => .obj (Map.ofList (sortedMembers ms)).entries
  | v => v
def sortedItems : List Json → List Json
  | [] => []
  | x :: xs => x.sorted :: sortedItems xs
def sortedMembers : List (String × Json) → List (String × Json)
  | [] => []
  | (k, v) :: ms => (k, v.sorted) :: sortedMembers ms
end

end Json

end ShellSettings
