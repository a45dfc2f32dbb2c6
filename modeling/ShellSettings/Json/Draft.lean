import ShellSettings.Json.Basic

/-!
# Reading JSON text

A text is first read into a `Draft`: what it holds, in the order written, as far
as it can be read. The place where reading stops is part of the draft, so that
whoever takes a record from it meets the faults of the text and the misfits of
its contents in the order in which they stand.

Two faults leave the shape of the text intact and are kept as leaves: a number
beyond the range of a double, and an escaped surrogate without its partner. They
matter only where the value is used.
-/

namespace ShellSettings

inductive Fault where
  -- What stands there cannot be read.
  | malformed
  -- The text ends too early.
  | cutShort
  -- It ends within a number.
  | cutNumber
  -- It ends within a word such as `null`.
  | cutWord
  -- It ends within a string, after an escaped surrogate without its partner.
  | cutUnpaired
deriving DecidableEq, Repr

namespace Fault

/-- Whether the end of the text comes before anything that cannot be read. -/
def isEarlyEnd : Fault → Bool
  | .malformed | .cutUnpaired => false
  | .cutShort | .cutNumber | .cutWord => true

/-- The fault for whoever passes over the value: a number is no number until it is complete, and
surrogates are not looked at. -/
def passedOver : Fault → Fault
  | .cutNumber => .malformed
  | .cutUnpaired => .cutShort
  | f => f

/-- The fault where only a name can stand: the first character of anything else is wrong. -/
def whereNameStands : Fault → Fault
  | .cutNumber | .cutWord => .malformed
  | f => f

end Fault

inductive MapEnd where
  | closed
  -- Neither the end of the map nor a comma.
  | fault (f : Fault)
  -- No key, where a key has to stand.
  | noKey (f : Fault)
deriving DecidableEq, Repr, Inhabited

def MapEnd.fault? : MapEnd → Option Fault
  | .closed => none
  | .fault f | .noKey f => some f

inductive Draft where
  | null
  | bool (b : Bool)
  | num (n : Option Number)
  | str (s : Option String)
  | arr (items : List Draft) (fault : Option Fault)
  | obj (members : List (Option String × Draft)) (stop : MapEnd)
  | broken (fault : Fault)
deriving Repr, Inhabited

namespace Draft

def isSpace (c : Char) : Bool := c == ' ' || c == '\n' || c == '\t' || c == '\r'

def skipSpace (cs : List Char) : List Char := cs.dropWhile isSpace

-- ---------------------------------------------------------------------------
-- Numbers
-- ---------------------------------------------------------------------------

def digitsValue (ds : List Char) : Nat := ds.foldl (fun n c => 10 * n + (c.toNat - '0'.toNat)) 0

def readDigits (cs : List Char) : Except Fault (List Char × List Char) :=
  match cs.takeWhile Char.isDigit, cs.dropWhile Char.isDigit with
  | [], [] => .error .cutNumber
  | [], _ :: _ => .error .malformed
  | ds, rest => .ok (ds, rest)

/-- The digits before the point: no zero leads another digit. -/
def readWhole (cs : List Char) : Except Fault (List Char × List Char) := do
  match ← readDigits cs with
  | ('0' :: _ :: _, _) => .error .malformed
  | r => .ok r

def readFraction : List Char → Except Fault (Option (List Char) × List Char)
  | '.' :: cs => do
    let (ds, rest) ← readDigits cs
    return (some ds, rest)
  | cs => .ok (none, cs)

def readSigned (cs : List Char) : Except Fault (Int × List Char) := do
  match cs with
  | '-' :: cs =>
    let (ds, rest) ← readDigits cs
    return (-(digitsValue ds : Int), rest)
  | '+' :: cs =>
    let (ds, rest) ← readDigits cs
    return ((digitsValue ds : Int), rest)
  | cs =>
    let (ds, rest) ← readDigits cs
    return ((digitsValue ds : Int), rest)

def readExponent : List Char → Except Fault (Option Int × List Char)
  | 'e' :: cs | 'E' :: cs => do
    let (e, rest) ← readSigned cs
    return (some e, rest)
  | cs => .ok (none, cs)

/-- A number written without point and exponent. Negative zero and what no word of 64 bits
holds are doubles. -/
def integerNumber (negative : Bool) (n : Nat) : Option Number :=
  let i : Int := if negative then -n else n
  if negative && n == 0 then some (.double (Double.zero true))
  else if -Number.signedLimit ≤ i ∧ i < Number.wordLimit then some (.int i)
  else (Double.ofDecimal negative n 0).map .double

def readNumber (cs : List Char) : Except Fault (Option Number × List Char) := do
  let (negative, cs) := match cs with
    | '-' :: cs => (true, cs)
    | cs => (false, cs)
  let (whole, cs) ← readWhole cs
  let (fraction, cs) ← readFraction cs
  let (exponent, cs) ← readExponent cs
  match fraction, exponent with
  | none, none => return (integerNumber negative (digitsValue whole), cs)
  | _, _ =>
    let ds := fraction.getD []
    let e := exponent.getD 0 - ds.length
    return ((Double.ofDecimal negative (digitsValue (whole ++ ds)) e).map .double, cs)

-- ---------------------------------------------------------------------------
-- Strings
-- ---------------------------------------------------------------------------

/-- A piece of a string: a character, or an escaped UTF-16 unit. -/
inductive Piece where
  | char (c : Char)
  | unit (n : Nat)

def hexDigit? (c : Char) : Option Nat :=
  if c.isDigit then some (c.toNat - '0'.toNat)
  else if 'a' ≤ c ∧ c ≤ 'f' then some (c.toNat - 'a'.toNat + 10)
  else if 'A' ≤ c ∧ c ≤ 'F' then some (c.toNat - 'A'.toNat + 10)
  else none

def hexValue? (cs : List Char) : Option Nat :=
  cs.foldlM (fun n c => (hexDigit? c).map (16 * n + ·)) 0

def escaped? : Char → Option Char
  | '"' => some '"'
  | '\\' => some '\\'
  | '/' => some '/'
  | 'b' => some '\x08'
  | 'f' => some '\x0c'
  | 'n' => some '\n'
  | 'r' => some '\r'
  | 't' => some '\t'
  | _ => none

def readPieces : List Char → List Piece × Except Fault (List Char)
  | [] => ([], .error .cutShort)
  | '"' :: rest => ([], .ok rest)
  | ['\\'] => ([], .error .cutShort)
  | '\\' :: 'u' :: a :: b :: c :: d :: rest =>
    match hexValue? [a, b, c, d] with
    | some n =>
      let (ps, end?) := readPieces rest
      (.unit n :: ps, end?)
    | none => ([], .error .malformed)
  | '\\' :: 'u' :: rest =>
    ([], .error (if (String.ofList rest).utf8ByteSize < 4 then .cutShort else .malformed))
  | '\\' :: c :: rest =>
    match escaped? c with
    | some c =>
      let (ps, end?) := readPieces rest
      (.char c :: ps, end?)
    | none => ([], .error .malformed)
  | c :: rest =>
    if c.toNat < 32 then ([], .error .malformed)
    else
      let (ps, end?) := readPieces rest
      (.char c :: ps, end?)

def isHighSurrogate (n : Nat) : Bool := 0xd800 ≤ n && n < 0xdc00

def isLowSurrogate (n : Nat) : Bool := 0xdc00 ≤ n && n < 0xe000

/-- The characters of the pieces, nothing if a surrogate has no partner. At the end of an
unclosed string a partner may still have followed. -/
def joinPieces (closed : Bool) : List Piece → Option (List Char)
  | [] => some []
  | .char c :: ps => (joinPieces closed ps).map (c :: ·)
  | .unit n :: .unit m :: ps =>
    if isHighSurrogate n then
      if isLowSurrogate m then
        let c := Char.ofNat (0x10000 + (n - 0xd800) * 0x400 + (m - 0xdc00))
        (joinPieces closed ps).map (c :: ·)
      else none
    else if isLowSurrogate n then none
    else (joinPieces closed (.unit m :: ps)).map (Char.ofNat n :: ·)
  | .unit n :: ps =>
    if isHighSurrogate n then
      if closed || !ps.isEmpty then none else some []
    else if isLowSurrogate n then none
    else (joinPieces closed ps).map (Char.ofNat n :: ·)

/-- What follows an opening quote: the text, nothing for one with a lone surrogate. -/
def readString (cs : List Char) : Except Fault (Option String × List Char) :=
  match readPieces cs with
  | (ps, .ok rest) => .ok ((joinPieces true ps).map String.ofList, rest)
  | (ps, .error fault) =>
    .error (if fault = .cutShort ∧ (joinPieces false ps).isNone then .cutUnpaired else fault)

-- ---------------------------------------------------------------------------
-- Values
-- ---------------------------------------------------------------------------

def readWord : List Char → List Char → Except Fault (List Char)
  | [], cs => .ok cs
  | _ :: _, [] => .error .cutWord
  | w :: ws, c :: cs => if w = c then readWord ws cs else .error .malformed

def leaf (r : Except Fault (Draft × List Char)) : Draft × Option (List Char) :=
  match r with
  | .ok (d, rest) => (d, some rest)
  | .error fault => (.broken fault, none)

mutual
/-- A value and what follows it. The bound is on the depth of the recursion; twice the length of
the text is never reached. -/
def readValue : Nat → List Char → Draft × Option (List Char)
  | 0, _ => (.broken .cutShort, none)
  | bound + 1, cs =>
    match skipSpace cs with
    | [] => (.broken .cutShort, none)
    | '"' :: rest => leaf ((readString rest).map fun (s, rest) => (.str s, rest))
    | '[' :: rest =>
      match skipSpace rest with
      | [] => (.arr [] (some .cutShort), none)
      | ']' :: rest => (.arr [] none, some rest)
      | rest =>
        let (items, fault, rest) := readItems bound rest
        (.arr items fault, rest)
    | '\x7b' :: rest =>
      match skipSpace rest with
      | '\x7d' :: rest => (.obj [] .closed, some rest)
      | rest =>
        let (members, stop, rest) := readMembers bound rest
        (.obj members stop, rest)
    | 'n' :: rest => leaf ((readWord ['u', 'l', 'l'] rest).map (.null, ·))
    | 't' :: rest => leaf ((readWord ['r', 'u', 'e'] rest).map (.bool true, ·))
    | 'f' :: rest => leaf ((readWord ['a', 'l', 's', 'e'] rest).map (.bool false, ·))
    | c :: rest =>
      if c = '-' || c.isDigit then
        leaf ((readNumber (c :: rest)).map fun (n, rest) => (.num n, rest))
      else (.broken .malformed, none)
def readItems : Nat → List Char → List Draft × Option Fault × Option (List Char)
  | 0, _ => ([], some .cutShort, none)
  | bound + 1, cs =>
    match readValue bound cs with
    | (item, none) => ([item], none, none)
    | (item, some rest) =>
      match skipSpace rest with
      | ']' :: rest => ([item], none, some rest)
      | ',' :: rest =>
        match skipSpace rest with
        | ']' :: _ => ([item, .broken .malformed], none, none)
        | rest =>
          let (items, fault, rest) := readItems bound rest
          (item :: items, fault, rest)
      | [] => ([item], some .cutShort, none)
      | _ => ([item], some .malformed, none)
def readMembers :
    Nat → List Char → List (Option String × Draft) × MapEnd × Option (List Char)
  | 0, _ => ([], .fault .cutShort, none)
  | bound + 1, '"' :: cs =>
    match readString cs with
    | .error fault => ([], .noKey fault, none)
    | .ok (key, rest) =>
      match skipSpace rest with
      | ':' :: rest =>
        match readValue bound rest with
        | (value, none) => ([(key, value)], .closed, none)
        | (value, some rest) =>
          match skipSpace rest with
          | '\x7d' :: rest => ([(key, value)], .closed, some rest)
          | ',' :: rest =>
            let (members, stop, rest) := readMembers bound (skipSpace rest)
            ((key, value) :: members, stop, rest)
          | [] => ([(key, value)], .fault .cutShort, none)
          | _ => ([(key, value)], .fault .malformed, none)
      | [] => ([(key, .broken .cutShort)], .closed, none)
      | _ => ([(key, .broken .malformed)], .closed, none)
  | _ + 1, [] => ([], .noKey .cutShort, none)
  | _ + 1, _ => ([], .noKey .malformed, none)
end

/-- The draft of a text, and whether anything but blanks follows its value. -/
def ofText (text : String) : Draft × Option Fault :=
  let cs := text.toList
  match readValue (2 * cs.length + 2) cs with
  | (d, none) => (d, none)
  | (d, some rest) => (d, if (skipSpace rest).isEmpty then none else some .malformed)

-- ---------------------------------------------------------------------------
-- Faults
-- ---------------------------------------------------------------------------

mutual
/-- The fault at which passing over the draft stops, if it does. -/
def fault? : Draft → Option Fault
  | .arr items fault => itemsFault? items <|> fault
  | .obj members stop => membersFault? members <|> stop.fault?.map Fault.passedOver
  | .broken fault => some fault.passedOver
  | _ => none
def itemsFault? : List Draft → Option Fault
  | [] => none
  | d :: ds => d.fault? <|> itemsFault? ds
def membersFault? : List (Option String × Draft) → Option Fault
  | [] => none
  | (_, d) :: ms => d.fault? <|> membersFault? ms
end

end Draft

end ShellSettings
