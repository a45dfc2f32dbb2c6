import ShellSettings.Text.Shown

/-!
# Quoted text in error messages

A text is shown between quotes. The quote, the backslash, tab, line feed,
carriage return and NUL have escapes of two characters; any other character that
cannot be shown as itself stands as its code point in hexadecimal.
-/

namespace ShellSettings.Text

def quotedChar (c : Char) : List Char :=
  match c with
  | '"' => ['\\', '"']
  | '\\' => ['\\', '\\']
  | '\t' => ['\\', 't']
  | '\n' => ['\\', 'n']
  | '\r' => ['\\', 'r']
  | '\x00' => ['\\', '0']
  | c =>
    if isShown c then [c]
    else ['\\', 'u', '\x7b'] ++ Nat.toDigits 16 c.toNat ++ ['\x7d']

def quoted (s : String) : String :=
  String.ofList ('"' :: s.toList.flatMap quotedChar ++ ['"'])

end ShellSettings.Text
