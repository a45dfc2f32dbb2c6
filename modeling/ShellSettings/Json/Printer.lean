import ShellSettings.Json.Basic

/-!
# JSON text

One line without blanks (`Json.compact`), or indented by two blanks a level
(`Json.pretty`), members in the order in which the value holds them. A string
escapes the quote, the backslash and the characters below the blank.
-/

namespace ShellSettings

namespace Number

def write (layout : Layout) : Number → List Char
  | .int i => (if i < 0 then ['-'] else []) ++ Nat.toDigits 10 i.natAbs
  | .double d => layout.write d

end Number

namespace Json

def escape (c : Char) : List Char :=
  match c with
  | '"' => ['\\', '"']
  | '\\' => ['\\', '\\']
  | '\n' => ['\\', 'n']
  | '\r' => ['\\', 'r']
  | '\t' => ['\\', 't']
  | '\x08' => ['\\', 'b']
  | '\x0c' => ['\\', 'f']
  | c =>
    if c.toNat < 32 then
      ['\\', 'u', '0', '0', Nat.digitChar (c.toNat / 16), Nat.digitChar (c.toNat % 16)]
    else [c]

def quote (s : String) : List Char := '"' :: s.toList.flatMap escape ++ ['"']

mutual
def chars (number : Number → List Char) : Json → List Char
  | .null => ['n', 'u', 'l', 'l']
  | .bool true => ['t', 'r', 'u', 'e']
  | .bool false => ['f', 'a', 'l', 's', 'e']
  | .num n => number n
  | .str s => quote s
  | .arr xs => '[' :: itemChars number xs ++ [']']
  | .obj ms => '\x7b' :: memberChars number ms ++ ['\x7d']
def itemChars (number : Number → List Char) : List Json → List Char
  | [] => []
  | [x] => x.chars number
  | x :: y :: xs => x.chars number ++ ',' :: itemChars number (y :: xs)
def memberChars (number : Number → List Char) : List (String × Json) → List Char
  | [] => []
  | [(k, v)] => quote k ++ ':' :: v.chars number
  | (k, v) :: m :: ms => quote k ++ ':' :: v.chars number ++ ',' :: memberChars number (m :: ms)
end

def newLine (level : Nat) : List Char := '\n' :: List.replicate (2 * level) ' '

mutual
/-- The indented text of a value that stands at the given level. -/
def prettyChars (level : Nat) : Json → List Char
  | .arr [] => ['[', ']']
  | .arr (x :: xs) => '[' :: prettyItems level (x :: xs) ++ newLine level ++ [']']
  | .obj [] => ['\x7b', '\x7d']
  | .obj (m :: ms) => '\x7b' :: prettyMembers level (m :: ms) ++ newLine level ++ ['\x7d']
  | v => v.chars (Number.write .json)
def prettyItems (level : Nat) : List Json → List Char
  | [] => []
  | [x] => newLine (level + 1) ++ x.prettyChars (level + 1)
  | x :: y :: xs =>
    newLine (level + 1) ++ x.prettyChars (level + 1) ++ ',' :: prettyItems level (y :: xs)
def prettyMembers (level : Nat) : List (String × Json) → List Char
  | [] => []
  | [(k, v)] => newLine (level + 1) ++ quote k ++ [':', ' '] ++ v.prettyChars (level + 1)
  | (k, v) :: m :: ms =>
    newLine (level + 1) ++ quote k ++ [':', ' '] ++ v.prettyChars (level + 1) ++
      ',' :: prettyMembers level (m :: ms)
end

def compact (v : Json) : String := String.ofList (v.chars (Number.write .json))

def pretty (v : Json) : String := String.ofList (v.prettyChars 0)

end Json

end ShellSettings
