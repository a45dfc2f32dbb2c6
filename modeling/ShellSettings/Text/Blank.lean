/-!
# Blank characters

The characters with the Unicode property White_Space. A text of blanks alone
counts as empty where the program asks for a name.
-/

namespace ShellSettings.Text

def isBlank (c : Char) : Bool :=
  let n := c.toNat
  (0x9 ≤ n && n ≤ 0xd) || n == 0x20 || n == 0x85 || n == 0xa0 || n == 0x1680 ||
    (0x2000 ≤ n && n ≤ 0x200a) || n == 0x2028 || n == 0x2029 || n == 0x202f || n == 0x205f ||
    n == 0x3000

def isBlankText (s : String) : Bool := s.toList.all isBlank

end ShellSettings.Text
