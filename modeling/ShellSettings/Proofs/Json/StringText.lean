import ShellSettings.Json.Draft
import ShellSettings.Json.Printer

/-!
# Strings and their texts

A quoted string is read back up to its closing quote: each character that is
escaped on its own is one piece of the text again, and no piece is half of a
surrogate pair.
-/

namespace ShellSettings.Draft

open Json (escape quote)

def piece (c : Char) : Piece :=
  if (escape c).take 2 = ['\\', 'u'] then .unit c.toNat else .char c

theorem hexValue?_control : ∀ n < 32,
    hexValue? ['0', '0', Nat.digitChar (n / 16), Nat.digitChar (n % 16)] = some n := by
  decide

theorem readPieces_escape (c : Char) (rest : List Char) :
    readPieces (escape c ++ rest) = (piece c :: (readPieces rest).1, (readPieces rest).2) := by
  unfold piece escape
  split
  all_goals try rfl
  rename_i hquote hslash _ _ _ _ _
  split
  · rename_i hcontrol
    simp [readPieces, hexValue?_control _ hcontrol]
  · rename_i hplain
    have hne : c ≠ '"' ∧ c ≠ '\\' := ⟨hquote, hslash⟩
    simp [readPieces, hne, hplain]

theorem readPieces_escaped (cs rest : List Char) :
    readPieces (cs.flatMap escape ++ '"' :: rest) = (cs.map piece, .ok rest) := by
  induction cs with
  | nil => rfl
  | cons c cs ih => simp [readPieces_escape, ih]

theorem control_of_unit {c : Char} (h : (escape c).take 2 = ['\\', 'u']) : c.toNat < 32 := by
  unfold escape at h
  split at h
  all_goals try simp at h
  split at h
  · assumption
  · simp at h

theorem joinPieces_piece (c : Char) (ps : List Piece) :
    joinPieces true (piece c :: ps) = (joinPieces true ps).map (c :: ·) := by
  unfold piece
  split
  · rename_i h
    have hcontrol := control_of_unit h
    have hhigh : isHighSurrogate c.toNat = false := by
      simp [isHighSurrogate]
      omega
    have hlow : isLowSurrogate c.toNat = false := by
      simp [isLowSurrogate]
      omega
    cases ps with
    | nil => simp [joinPieces, hhigh, hlow]
    | cons p ps => cases p <;> simp [joinPieces, hhigh, hlow]
  · rfl

theorem joinPieces_pieces (cs : List Char) : joinPieces true (cs.map piece) = some cs := by
  induction cs with
  | nil => rfl
  | cons c cs ih => simp [joinPieces_piece, ih]

theorem quote_append (s : String) (rest : List Char) :
    quote s ++ rest = '"' :: (s.toList.flatMap escape ++ '"' :: rest) := by
  simp [quote]

theorem readString_escaped (s : String) (rest : List Char) :
    readString (s.toList.flatMap escape ++ '"' :: rest) = .ok (some s, rest) := by
  simp [readString, readPieces_escaped, joinPieces_pieces]

end ShellSettings.Draft
