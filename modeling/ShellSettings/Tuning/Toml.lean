/-!
# TOML text

The part of TOML 1.0 that a flat configuration can use: keys at the top level
with strings, integers and arrays of these. Tables, dotted keys, dates, floats
and booleans are well-formed TOML that no such configuration admits, so reading
refuses them like malformed text.
-/

namespace ShellSettings.Toml

inductive Value where
  | text (s : String)
  | integer (i : Int)
  | array (items : List Value)
deriving Repr, Inhabited

abbrev Step (α : Type) := List Char → Option (α × List Char)

-- ---------------------------------------------------------------------------
-- Blanks, comments and line ends
-- ---------------------------------------------------------------------------

def isSpace (c : Char) : Bool := c == ' ' || c == '\t'

/-- What may stand in a comment and, but for its own delimiters, in a string. -/
def isPlain (c : Char) : Bool := c == '\t' || (0x20 ≤ c.toNat && c.toNat ≠ 0x7f)

def skipSpace (cs : List Char) : List Char := cs.dropWhile isSpace

def skipComment : List Char → List Char
  | '#' :: cs => cs.dropWhile isPlain
  | cs => cs

def lineEnd? : List Char → Option (List Char)
  | '\n' :: cs => some cs
  | '\r' :: '\n' :: cs => some cs
  | _ => none

def skipLines : Nat → List Char → List Char
  | 0, cs => cs
  | bound + 1, cs =>
    match lineEnd? (skipComment (skipSpace cs)) with
    | some rest => skipLines bound rest
    | none => skipComment (skipSpace cs)

-- ---------------------------------------------------------------------------
-- Strings
-- ---------------------------------------------------------------------------

def hexDigit? (c : Char) : Option Nat :=
  if c.isDigit then some (c.toNat - '0'.toNat)
  else if 'a' ≤ c ∧ c ≤ 'f' then some (c.toNat - 'a'.toNat + 10)
  else if 'A' ≤ c ∧ c ≤ 'F' then some (c.toNat - 'A'.toNat + 10)
  else none

def scalar? (digits : List Char) : Option Char := do
  let n ← digits.foldlM (fun n c => (hexDigit? c).map (16 * n + ·)) 0
  if n.isValidChar then some (Char.ofNat n) else none

def escaped? : Char → Option Char
  | 'b' => some '\x08'
  | 't' => some '\t'
  | 'n' => some '\n'
  | 'f' => some '\x0c'
  | 'r' => some '\r'
  | '"' => some '"'
  | '\\' => some '\\'
  | _ => none

def readEscape : Step Char
  | 'u' :: a :: b :: c :: d :: rest => (scalar? [a, b, c, d]).map (·, rest)
  | 'U' :: a :: b :: c :: d :: e :: f :: g :: h :: rest =>
    (scalar? [a, b, c, d, e, f, g, h]).map (·, rest)
  | c :: rest => (escaped? c).map (·, rest)
  | [] => none

def readBasic : Nat → Step (List Char)
  | 0, _ => none
  | _, '"' :: rest => some ([], rest)
  | bound + 1, '\\' :: cs => do
    let (c, rest) ← readEscape cs
    let (s, rest) ← readBasic bound rest
    return (c :: s, rest)
  | bound + 1, c :: cs =>
    if isPlain c then do
      let (s, rest) ← readBasic bound cs
      return (c :: s, rest)
    else none
  | _, [] => none

def readLiteral : Step (List Char)
  | '\'' :: rest => some ([], rest)
  | c :: cs =>
    if isPlain c then do
      let (s, rest) ← readLiteral cs
      return (c :: s, rest)
    else none
  | [] => none

/-- Quotes at the end of a string of several lines: three close it, and up to two before them
belong to it. -/
def closing? (quote : Char) (cs : List Char) : Option (List Char × List Char) :=
  let quotes := cs.takeWhile (· == quote)
  if quotes.length < 3 then none
  else
    let inside := min (quotes.length - 3) 2
    some (List.replicate inside quote, cs.drop (inside + 3))

def skipBlankLines : Nat → List Char → List Char
  | 0, cs => cs
  | bound + 1, cs =>
    match lineEnd? (skipSpace cs) with
    | some rest => skipBlankLines bound rest
    | none => skipSpace cs

/-- A line end between lines counts as one character, however it is written. -/
def readBasicLines : Nat → Step (List Char)
  | 0, _ => none
  | bound + 1, cs =>
    match closing? '"' cs with
    | some r => some r
    | none =>
      match cs with
      | '\\' :: cs =>
        match lineEnd? (skipSpace cs) with
        | some rest =>
          readBasicLines bound (skipBlankLines rest.length rest)
        | none => do
          let (c, rest) ← readEscape cs
          let (s, rest) ← readBasicLines bound rest
          return (c :: s, rest)
      | c :: rest =>
        match lineEnd? cs with
        | some rest => do
          let (s, rest) ← readBasicLines bound rest
          return ('\n' :: s, rest)
        | none =>
          if isPlain c then do
            let (s, rest) ← readBasicLines bound rest
            return (c :: s, rest)
          else none
      | [] => none

def readLiteralLines : Nat → Step (List Char)
  | 0, _ => none
  | bound + 1, cs =>
    match closing? '\'' cs with
    | some r => some r
    | none =>
      match lineEnd? cs, cs with
      | some rest, _ => do
        let (s, rest) ← readLiteralLines bound rest
        return ('\n' :: s, rest)
      | none, c :: rest =>
        if isPlain c then do
          let (s, rest) ← readLiteralLines bound rest
          return (c :: s, rest)
        else none
      | none, [] => none

def dropFirstLineEnd (cs : List Char) : List Char := (lineEnd? cs).getD cs

def readString : Step String := fun cs =>
  let bound := cs.length + 1
  (match cs with
  | '"' :: '"' :: '"' :: cs => readBasicLines bound (dropFirstLineEnd cs)
  | '\'' :: '\'' :: '\'' :: cs => readLiteralLines bound (dropFirstLineEnd cs)
  | '"' :: cs => readBasic bound cs
  | '\'' :: cs => readLiteral cs
  | _ => none).map fun (s, rest) => (String.ofList s, rest)

-- ---------------------------------------------------------------------------
-- Integers
-- ---------------------------------------------------------------------------

/-- Digits of a base, an underscore only between two of them. -/
def digitRun (isDigit : Char → Bool) : List Char → Option (List Char)
  | [] => none
  | [c] => if isDigit c then some [c] else none
  | c :: '_' :: cs => if isDigit c then (digitRun isDigit cs).map (c :: ·) else none
  | c :: cs => if isDigit c then (digitRun isDigit cs).map (c :: ·) else none

def inBase (base : Nat) (ds : List Char) : Option Nat := do
  let isDigit := fun c => match hexDigit? c with
    | some n => n < base
    | none => false
  let ds ← digitRun isDigit ds
  ds.foldlM (fun n c => (hexDigit? c).map (base * n + ·)) 0

/-- The digits of a decimal: no zero leads another digit. -/
def decimal (ds : List Char) : Option Nat :=
  match ds with
  | ['0'] => some 0
  | '0' :: _ => none
  | ds => inBase 10 ds

def signedLimit : Int := 0x8000000000000000

def integer? (token : List Char) : Option Int := do
  let i : Int ← match token with
    | '0' :: 'x' :: ds => (inBase 16 ds).map Int.ofNat
    | '0' :: 'o' :: ds => (inBase 8 ds).map Int.ofNat
    | '0' :: 'b' :: ds => (inBase 2 ds).map Int.ofNat
    | '+' :: ds => (decimal ds).map Int.ofNat
    | '-' :: ds => (decimal ds).map fun n => -(n : Int)
    | ds => (decimal ds).map Int.ofNat
  if -signedLimit ≤ i ∧ i < signedLimit then some i else none

def isTokenChar (c : Char) : Bool :=
  c.isAlphanum || c == '_' || c == '-' || c == '+' || c == '.' || c == ':'

-- ---------------------------------------------------------------------------
-- Values, keys and lines
-- ---------------------------------------------------------------------------

mutual
def readValue : Nat → Step Value
  | 0, _ => none
  | bound + 1, cs =>
    match cs with
    | '[' :: cs => do
      let (items, rest) ← readItems bound (skipLines cs.length cs)
      return (.array items, rest)
    | '"' :: _ | '\'' :: _ => (readString cs).map fun (s, rest) => (.text s, rest)
    | cs =>
      (integer? (cs.takeWhile isTokenChar)).map fun i => (.integer i, cs.dropWhile isTokenChar)
/-- The items from here to the closing bracket, which a comma may precede. -/
def readItems : Nat → Step (List Value)
  | 0, _ => none
  | _, ']' :: rest => some ([], rest)
  | bound + 1, cs => do
    let (item, rest) ← readValue bound cs
    match skipLines rest.length rest with
    | ']' :: rest => return ([item], rest)
    | ',' :: rest =>
      let (items, rest) ← readItems bound (skipLines rest.length rest)
      return (item :: items, rest)
    | _ => none
end

def isBareKeyChar (c : Char) : Bool := c.isAlphanum || c == '_' || c == '-'

def readKey : Step String := fun cs =>
  match cs with
  | '"' :: '"' :: '"' :: _ | '\'' :: '\'' :: '\'' :: _ => none
  | '"' :: _ | '\'' :: _ => readString cs
  | cs =>
    match cs.takeWhile isBareKeyChar with
    | [] => none
    | key => some (String.ofList key, cs.dropWhile isBareKeyChar)

def readPair : Step (String × Value) := fun cs => do
  let (key, rest) ← readKey cs
  match skipSpace rest with
  | '=' :: rest =>
    let (value, rest) ← readValue (2 * rest.length + 2) (skipSpace rest)
    return ((key, value), rest)
  | _ => none

def readLines : Nat → List Char → Option (List (String × Value))
  | 0, _ => none
  | bound + 1, cs =>
    match skipLines cs.length cs with
    | [] => some []
    | cs => do
      let (pair, rest) ← readPair cs
      match skipComment (skipSpace rest) with
      | [] => return [pair]
      | rest =>
        let rest ← lineEnd? rest
        return pair :: (← readLines bound rest)

/-- The pairs of a text. A byte order mark may come first. -/
def parse (text : String) : Option (List (String × Value)) :=
  let cs := match text.toList with
    | '\ufeff' :: cs => cs
    | cs => cs
  readLines (cs.length + 1) cs

end ShellSettings.Toml
