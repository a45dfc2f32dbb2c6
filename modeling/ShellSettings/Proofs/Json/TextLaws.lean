import ShellSettings.Json.Source
import ShellSettings.Proofs.Json.NumberText
import ShellSettings.Proofs.Json.RecordLaws
import ShellSettings.Proofs.Json.StringText

/-!
# Texts and the values they hold

Compact and indented text differ only in the blanks between their parts, and in
how numbers are written. Whatever the blanks are, reading the text of a value
gives the draft of that value with every number as it is read. The whole of such
a draft can be taken exactly if it is not nested too deeply.
-/

namespace ShellSettings

namespace Json

-- ---------------------------------------------------------------------------
-- Parts, numbers and depth of a value
-- ---------------------------------------------------------------------------

mutual
/-- `P` holds of the value and of every value in it. -/
def Everywhere (P : Json → Prop) : Json → Prop
  | .arr xs => P (.arr xs) ∧ ItemsEverywhere P xs
  | .obj ms => P (.obj ms) ∧ MembersEverywhere P ms
  | v => P v
def ItemsEverywhere (P : Json → Prop) : List Json → Prop
  | [] => True
  | x :: xs => x.Everywhere P ∧ ItemsEverywhere P xs
def MembersEverywhere (P : Json → Prop) : List (String × Json) → Prop
  | [] => True
  | (_, v) :: ms => v.Everywhere P ∧ MembersEverywhere P ms
end

theorem itemsEverywhere_iff {P : Json → Prop} {xs : List Json} :
    ItemsEverywhere P xs ↔ ∀ x ∈ xs, x.Everywhere P := by
  induction xs with
  | nil => simp [ItemsEverywhere]
  | cons x xs ih => simp [ItemsEverywhere, ih]

theorem membersEverywhere_iff {P : Json → Prop} {ms : List (String × Json)} :
    MembersEverywhere P ms ↔ ∀ m ∈ ms, m.2.Everywhere P := by
  induction ms with
  | nil => simp [MembersEverywhere]
  | cons m ms ih => simp [MembersEverywhere, ih]

mutual
/-- Induction over the parts of a value: the items of an array, the values in an object. -/
@[elab_as_elim]
theorem partsInduction {P : Json → Prop} (null : P .null) (bool : ∀ b, P (.bool b))
    (num : ∀ n, P (.num n)) (str : ∀ t, P (.str t))
    (arr : ∀ xs, (∀ x ∈ xs, P x) → P (.arr xs))
    (obj : ∀ ms, (∀ m ∈ ms, P m.2) → P (.obj ms)) : (v : Json) → P v
  | .null => null
  | .bool b => bool b
  | .num n => num n
  | .str t => str t
  | .arr xs => arr xs (itemsInduction null bool num str arr obj xs)
  | .obj ms => obj ms (membersInduction null bool num str arr obj ms)
theorem itemsInduction {P : Json → Prop} (null : P .null) (bool : ∀ b, P (.bool b))
    (num : ∀ n, P (.num n)) (str : ∀ t, P (.str t))
    (arr : ∀ xs, (∀ x ∈ xs, P x) → P (.arr xs))
    (obj : ∀ ms, (∀ m ∈ ms, P m.2) → P (.obj ms)) : (xs : List Json) → ∀ x ∈ xs, P x
  | [] => by simp
  | x :: xs => List.forall_mem_cons.mpr
      ⟨partsInduction null bool num str arr obj x, itemsInduction null bool num str arr obj xs⟩
theorem membersInduction {P : Json → Prop} (null : P .null) (bool : ∀ b, P (.bool b))
    (num : ∀ n, P (.num n)) (str : ∀ t, P (.str t))
    (arr : ∀ xs, (∀ x ∈ xs, P x) → P (.arr xs))
    (obj : ∀ ms, (∀ m ∈ ms, P m.2) → P (.obj ms)) : (ms : List (String × Json)) →
      ∀ m ∈ ms, P m.2
  | [] => by simp
  | (_, v) :: ms => List.forall_mem_cons.mpr
      ⟨partsInduction null bool num str arr obj v, membersInduction null bool num str arr obj ms⟩
end

def NumberIs (P : Number → Prop) : Json → Prop
  | .num n => P n
  | _ => True

theorem everywhere_of_forall {P : Json → Prop} (h : ∀ v, P v) (v : Json) : v.Everywhere P := by
  induction v using partsInduction with
  | null | bool | num | str => exact h _
  | arr xs ih => exact ⟨h _, itemsEverywhere_iff.mpr ih⟩
  | obj ms ih => exact ⟨h _, membersEverywhere_iff.mpr ih⟩

abbrev AllNumbers (P : Number → Prop) (v : Json) : Prop := v.Everywhere (NumberIs P)

mutual
def mapNumbers (f : Number → Number) : Json → Json
  | .num n => .num (f n)
  | .arr xs => .arr (mapItemNumbers f xs)
  | .obj ms => .obj (mapMemberNumbers f ms)
  | v => v
def mapItemNumbers (f : Number → Number) : List Json → List Json
  | [] => []
  | x :: xs => x.mapNumbers f :: mapItemNumbers f xs
def mapMemberNumbers (f : Number → Number) : List (String × Json) → List (String × Json)
  | [] => []
  | (k, v) :: ms => (k, v.mapNumbers f) :: mapMemberNumbers f ms
end

mutual
/-- How many containers are open at the innermost place. -/
def depth : Json → Nat
  | .arr xs => itemsDepth xs + 1
  | .obj ms => membersDepth ms + 1
  | _ => 0
def itemsDepth : List Json → Nat
  | [] => 0
  | x :: xs => max x.depth (itemsDepth xs)
def membersDepth : List (String × Json) → Nat
  | [] => 0
  | (_, v) :: ms => max v.depth (membersDepth ms)
end

-- ---------------------------------------------------------------------------
-- Layouts of values
-- ---------------------------------------------------------------------------

structure Spacing where
  -- Before an item or member at a level, and before the end of its container.
  gap : Nat → List Char
  afterColon : List Char
  gap_blank : ∀ level, ∀ c ∈ gap level, Draft.isSpace c = true
  afterColon_blank : ∀ c ∈ afterColon, Draft.isSpace c = true

namespace Spacing

def none : Spacing := ⟨fun _ => [], [], nofun, nofun⟩

def indented : Spacing where
  gap := newLine
  afterColon := [' ']
  gap_blank level c hc := by
    rcases List.mem_cons.mp hc with rfl | hc
    · rfl
    · rw [List.eq_of_mem_replicate hc]
      rfl
  afterColon_blank c hc := by
    rw [List.mem_singleton.mp hc]
    rfl

end Spacing

variable (s : Spacing) (number : Number → List Char)

mutual
def laid (level : Nat) : Json → List Char
  | .null => ['n', 'u', 'l', 'l']
  | .bool true => ['t', 'r', 'u', 'e']
  | .bool false => ['f', 'a', 'l', 's', 'e']
  | .num n => number n
  | .str t => quote t
  | .arr [] => ['[', ']']
  | .arr (x :: xs) => '[' :: (laidItems level (x :: xs) ++ (s.gap level ++ [']']))
  | .obj [] => ['\x7b', '\x7d']
  | .obj (m :: ms) => '\x7b' :: (laidMembers level (m :: ms) ++ (s.gap level ++ ['\x7d']))
def laidItems (level : Nat) : List Json → List Char
  | [] => []
  | [x] => s.gap (level + 1) ++ x.laid (level + 1)
  | x :: y :: xs => s.gap (level + 1) ++ (x.laid (level + 1) ++ ',' :: laidItems level (y :: xs))
def laidMembers (level : Nat) : List (String × Json) → List Char
  | [] => []
  | [(k, v)] => s.gap (level + 1) ++ (quote k ++ ':' :: (s.afterColon ++ v.laid (level + 1)))
  | (k, v) :: m :: ms =>
    s.gap (level + 1) ++ (quote k ++ ':' :: (s.afterColon ++ (v.laid (level + 1) ++
      ',' :: laidMembers level (m :: ms))))
end

mutual
theorem chars_eq_laid (level : Nat) : (v : Json) → v.chars number = v.laid .none number level
  | .null | .bool true | .bool false | .num _ | .str _ => by simp [chars, laid]
  | .arr [] => by simp [chars, itemChars, laid]
  | .arr (x :: xs) => by
    simp [chars, laid, itemChars_eq_laid level (x :: xs), Spacing.none]
  | .obj [] => by simp [chars, memberChars, laid]
  | .obj (m :: ms) => by
    simp [chars, laid, memberChars_eq_laid level (m :: ms), Spacing.none]
theorem itemChars_eq_laid (level : Nat) :
    (xs : List Json) → itemChars number xs = laidItems .none number level xs
  | [] => by simp [itemChars, laidItems]
  | [x] => by simp [itemChars, laidItems, chars_eq_laid (level + 1) x, Spacing.none]
  | x :: y :: xs => by
    simp [itemChars, laidItems, chars_eq_laid (level + 1) x, itemChars_eq_laid level (y :: xs),
      Spacing.none]
theorem memberChars_eq_laid (level : Nat) :
    (ms : List (String × Json)) → memberChars number ms = laidMembers .none number level ms
  | [] => by simp [memberChars, laidMembers]
  | [(k, v)] => by simp [memberChars, laidMembers, chars_eq_laid (level + 1) v, Spacing.none]
  | (k, v) :: m :: ms => by
    simp [memberChars, laidMembers, chars_eq_laid (level + 1) v,
      memberChars_eq_laid level (m :: ms), Spacing.none]
end

mutual
theorem prettyChars_eq_laid (level : Nat) :
    (v : Json) → v.prettyChars level = v.laid .indented (Number.write .json) level
  | .null | .bool true | .bool false | .num _ | .str _ => by simp [prettyChars, chars, laid]
  | .arr [] => by simp [prettyChars, laid]
  | .arr (x :: xs) => by
    simp [prettyChars, laid, prettyItems_eq_laid level (x :: xs), Spacing.indented]
  | .obj [] => by simp [prettyChars, laid]
  | .obj (m :: ms) => by
    simp [prettyChars, laid, prettyMembers_eq_laid level (m :: ms), Spacing.indented]
theorem prettyItems_eq_laid (level : Nat) : (xs : List Json) →
    prettyItems level xs = laidItems .indented (Number.write .json) level xs
  | [] => by simp [prettyItems, laidItems]
  | [x] => by simp [prettyItems, laidItems, prettyChars_eq_laid (level + 1) x, Spacing.indented]
  | x :: y :: xs => by
    simp [prettyItems, laidItems, prettyChars_eq_laid (level + 1) x,
      prettyItems_eq_laid level (y :: xs), Spacing.indented]
theorem prettyMembers_eq_laid (level : Nat) : (ms : List (String × Json)) →
    prettyMembers level ms = laidMembers .indented (Number.write .json) level ms
  | [] => by simp [prettyMembers, laidMembers]
  | [(k, v)] => by
    simp [prettyMembers, laidMembers, prettyChars_eq_laid (level + 1) v, Spacing.indented]
  | (k, v) :: m :: ms => by
    simp [prettyMembers, laidMembers, prettyChars_eq_laid (level + 1) v,
      prettyMembers_eq_laid level (m :: ms), Spacing.indented]
end

end Json

namespace Draft

-- ---------------------------------------------------------------------------
-- The draft of a value
-- ---------------------------------------------------------------------------

mutual
def ofJson : Json → Draft
  | .null => .null
  | .bool b => .bool b
  | .num n => .num (some n)
  | .str s => .str (some s)
  | .arr xs => .arr (ofItems xs) none
  | .obj ms => .obj (ofMembers ms) .closed
def ofItems : List Json → List Draft
  | [] => []
  | x :: xs => ofJson x :: ofItems xs
def ofMembers : List (String × Json) → List (Option String × Draft)
  | [] => []
  | (k, v) :: ms => (some k, ofJson v) :: ofMembers ms
end

mutual
theorem whole_ofJson (room : Nat) : (v : Json) →
    (ofJson v).whole room = if v.depth ≤ room then .ok v else .error (.fault .malformed)
  | .null | .bool _ | .num _ | .str _ => by simp [ofJson, whole, Json.depth]
  | .arr xs => by
    cases room with
    | zero => simp [ofJson, whole, Json.depth]
    | succ room =>
      simp only [ofJson, whole, Json.depth, wholeItems_ofItems room xs, Nat.add_le_add_iff_right]
      split <;> rfl
  | .obj ms => by
    cases room with
    | zero => simp [ofJson, whole, Json.depth]
    | succ room =>
      simp only [ofJson, whole, Json.depth, wholeMembers_ofMembers room ms,
        Nat.add_le_add_iff_right]
      split <;> rfl
theorem wholeItems_ofItems (room : Nat) : (xs : List Json) →
    wholeItems (ofItems xs) room =
      if Json.itemsDepth xs ≤ room then .ok xs else .error (.fault .malformed)
  | [] => by simp [ofItems, wholeItems, Json.itemsDepth]
  | x :: xs => by
    simp only [ofItems, wholeItems, Json.itemsDepth, whole_ofJson room x,
      wholeItems_ofItems room xs, Nat.max_le]
    by_cases hx : x.depth ≤ room <;> by_cases hxs : Json.itemsDepth xs ≤ room <;>
      simp [hx, hxs, bind, Except.bind]
theorem wholeMembers_ofMembers (room : Nat) : (ms : List (String × Json)) →
    wholeMembers (ofMembers ms) room =
      if Json.membersDepth ms ≤ room then .ok ms else .error (.fault .malformed)
  | [] => by simp [ofMembers, wholeMembers, Json.membersDepth]
  | (k, v) :: ms => by
    simp only [ofMembers, wholeMembers, Json.membersDepth, whole_ofJson room v,
      wholeMembers_ofMembers room ms, Nat.max_le]
    by_cases hv : v.depth ≤ room <;> by_cases hms : Json.membersDepth ms ≤ room <;>
      simp [hv, hms, bind, Except.bind]
end

theorem ofJson_injective {v w : Json} (h : ofJson v = ofJson w) : v = w := by
  have hv := whole_ofJson (max v.depth w.depth) v
  have hw := whole_ofJson (max v.depth w.depth) w
  rw [if_pos (Nat.le_max_left _ _), h] at hv
  rw [if_pos (Nat.le_max_right _ _)] at hw
  exact Except.ok.inj (hv.symm.trans hw)

-- ---------------------------------------------------------------------------
-- Reading a text
-- ---------------------------------------------------------------------------

theorem skipSpace_append {bs : List Char} (hbs : ∀ c ∈ bs, isSpace c = true) (cs : List Char) :
    skipSpace (bs ++ cs) = skipSpace cs :=
  List.dropWhile_append_of_pos hbs

theorem skipSpace_cons {c : Char} (hc : isSpace c = false) (cs : List Char) :
    skipSpace (c :: cs) = c :: cs := by
  simp [skipSpace, hc]

theorem skipSpace_skipSpace (cs : List Char) : skipSpace (skipSpace cs) = skipSpace cs := by
  cases h : skipSpace cs with
  | nil => rfl
  | cons c rest =>
    have hc := List.head?_dropWhile_not isSpace cs
    rw [show cs.dropWhile isSpace = c :: rest from h] at hc
    exact skipSpace_cons (by simpa using hc) rest

theorem readValue_skipSpace (bound : Nat) (cs : List Char) :
    readValue bound (skipSpace cs) = readValue bound cs := by
  cases bound with
  | zero => rfl
  | succ bound => simp only [readValue, skipSpace_skipSpace]

theorem readItems_skipSpace (bound : Nat) (cs : List Char) :
    readItems bound (skipSpace cs) = readItems bound cs := by
  cases bound with
  | zero => rfl
  | succ bound => simp only [readItems, readValue_skipSpace]

theorem readDigits_head {cs : List Char} {r : List Char × List Char}
    (h : readDigits cs = .ok r) : ∃ c tail, cs = c :: tail ∧ c.isDigit = true := by
  cases cs with
  | nil => cases h
  | cons c tail =>
    refine ⟨c, tail, rfl, ?_⟩
    by_contra hc
    have hnone : (c :: tail).takeWhile Char.isDigit = [] := by simp [hc]
    have hall : (c :: tail).dropWhile Char.isDigit = c :: tail := by simp [hc]
    rw [readDigits, hnone, hall] at h
    cases h

theorem readNumber_head {cs : List Char} {r : Option Number × List Char}
    (h : readNumber cs = .ok r) : ∃ c tail, cs = c :: tail ∧ (c = '-' ∨ c.isDigit = true) := by
  unfold readNumber at h
  split at h
  rename_i body hbody
  obtain ⟨_, hwhole, _⟩ := bind_eq_ok h
  obtain ⟨_, hdigits, _⟩ := bind_eq_ok hwhole
  split at hbody
  · exact ⟨_, _, rfl, .inl rfl⟩
  · cases hbody
    obtain ⟨c, tail, rfl, hc⟩ := readDigits_head hdigits
    exact ⟨c, tail, rfl, .inr hc⟩

theorem endsNumber_blank {bs cs : List Char} (hbs : ∀ c ∈ bs, isSpace c = true)
    (hcs : EndsNumber cs) : EndsNumber (bs ++ cs) := by
  cases bs with
  | nil => exact hcs
  | cons b bs =>
    intro c hc
    obtain rfl : b = c := by simpa using hc
    have hb := hbs b List.mem_cons_self
    simp only [isSpace, Bool.or_eq_true, beq_iff_eq] at hb
    rcases hb with ((rfl | rfl) | rfl) | rfl <;> decide

-- ---------------------------------------------------------------------------
-- Steps of the reader
-- ---------------------------------------------------------------------------

section Steps

variable {bound : Nat} {cs rest rest' tail : List Char} {c : Char} {item : Draft}
  {key : Option String}

theorem readValue_bracket (hrest : skipSpace rest = c :: tail) (hc : c ≠ ']') :
    readValue (bound + 1) ('[' :: rest) =
      (.arr (readItems bound rest).1 (readItems bound rest).2.1, (readItems bound rest).2.2) := by
  have hopen : isSpace '[' = false := rfl
  rw [readValue, skipSpace_cons hopen, ← readItems_skipSpace bound rest]
  simp only [hrest]
  split <;> simp_all

theorem readItems_last (hitem : readValue bound cs = (item, some rest))
    (hrest : skipSpace rest = ']' :: rest') :
    readItems (bound + 1) cs = ([item], none, some rest') := by
  simp only [readItems, hitem, hrest]

theorem readItems_more (hitem : readValue bound cs = (item, some rest))
    (hrest : skipSpace rest = ',' :: rest') (hnext : skipSpace rest' = c :: tail) (hc : c ≠ ']') :
    readItems (bound + 1) cs = (item :: (readItems bound rest').1, (readItems bound rest').2) := by
  rw [← readItems_skipSpace bound rest']
  simp only [readItems, hitem, hrest, hnext]
  split <;> simp_all

theorem readValue_brace (hrest : skipSpace rest = '"' :: tail) :
    readValue (bound + 1) ('\x7b' :: rest) =
      (.obj (readMembers bound (skipSpace rest)).1 (readMembers bound (skipSpace rest)).2.1,
        (readMembers bound (skipSpace rest)).2.2) := by
  have hopen : isSpace '\x7b' = false := rfl
  rw [readValue, skipSpace_cons hopen]
  simp only [hrest]
  rfl

theorem isSpace_of_number (hc : c = '-' ∨ c.isDigit = true) : isSpace c = false := by
  rcases hc with rfl | hc
  · rfl
  · by_contra hspace
    simp only [isSpace, Bool.not_eq_false, Bool.or_eq_true, beq_iff_eq] at hspace
    rcases hspace with ((rfl | rfl) | rfl) | rfl <;> cases hc

theorem readValue_number (hc : c = '-' ∨ c.isDigit = true) :
    readValue (bound + 1) (c :: cs) =
      leaf ((readNumber (c :: cs)).map fun (n, rest) => (.num n, rest)) := by
  -- No other value begins with such a character.
  have hother : ∀ d, d ∈ ['"', '[', '\x7b', 'n', 't', 'f'] → c ≠ d := by
    rintro d hd rfl
    revert hd
    rcases hc with rfl | hc
    · decide
    · intro hd
      simp only [List.mem_cons, List.not_mem_nil, or_false] at hd
      rcases hd with rfl | rfl | rfl | rfl | rfl | rfl <;> cases hc
  have hnumber : (c = '-' || c.isDigit) = true := by simpa using hc
  rw [readValue, skipSpace_cons (isSpace_of_number hc)]
  split
  all_goals rename_i heq
  · cases heq
  all_goals obtain ⟨rfl, rfl⟩ := List.cons.inj heq
  all_goals first
    | exact absurd rfl (hother _ (by decide))
    | rw [if_pos hnumber]

theorem readMembers_last (hkey : readString cs = .ok (key, ':' :: rest))
    (hitem : readValue bound rest = (item, some rest'))
    (hrest : skipSpace rest' = '\x7d' :: tail) :
    readMembers (bound + 1) ('"' :: cs) = ([(key, item)], .closed, some tail) := by
  have hcolon : isSpace ':' = false := rfl
  simp only [readMembers, hkey, skipSpace_cons hcolon, hitem, hrest]

theorem readMembers_more (hkey : readString cs = .ok (key, ':' :: rest))
    (hitem : readValue bound rest = (item, some rest')) (hrest : skipSpace rest' = ',' :: tail) :
    readMembers (bound + 1) ('"' :: cs) =
      ((key, item) :: (readMembers bound (skipSpace tail)).1,
        (readMembers bound (skipSpace tail)).2) := by
  have hcolon : isSpace ':' = false := rfl
  simp only [readMembers, hkey, skipSpace_cons hcolon, hitem, hrest]

end Steps

/-- Numbers that fit are read as `f` gives them, wherever a number can end. -/
def Rereads (write : Number → List Char) (f : Number → Number) (P : Number → Prop) : Prop :=
  ∀ n, P n → ∀ rest, EndsNumber rest → readNumber (write n ++ rest) = .ok (some (f n), rest)

theorem rereads_json : Rereads (Number.write .json) id Number.Exact :=
  fun _ hn _ hrest => Number.readNumber_write hn hrest

theorem rereads_canonical : Rereads Number.canonical Number.reread fun _ => True :=
  fun n _ _ hrest => n.readNumber_canonical hrest

section Laid

open Json (AllNumbers NumberIs ItemsEverywhere MembersEverywhere laid laidItems laidMembers)

variable {s : Json.Spacing} {number : Number → List Char} {f : Number → Number}
  {P : Number → Prop}

theorem laid_head (hf : Rereads number f P) {v : Json} (hv : v.AllNumbers P) (level : Nat) :
    ∃ c tail, v.laid s number level = c :: tail ∧ isSpace c = false ∧ c ≠ ']' := by
  cases v with
  | null => exact ⟨_, _, rfl, by decide⟩
  | bool b => cases b <;> exact ⟨_, _, by rw [laid], by decide⟩
  | num n =>
    obtain ⟨c, tail, hchars, hc⟩ := readNumber_head (hf n hv [] endsNumber_nil)
    rw [List.append_nil] at hchars
    refine ⟨c, tail, by rw [laid, hchars], isSpace_of_number hc, ?_⟩
    rintro rfl
    rcases hc with hc | hc <;> cases hc
  | str t => exact ⟨_, _, by rw [laid, Json.quote]; rfl, by decide⟩
  | arr xs => cases xs <;> exact ⟨_, _, by rw [laid], by decide⟩
  | obj ms => cases ms <;> exact ⟨_, _, by rw [laid], by decide⟩

theorem laidItems_head (hf : Rereads number f P) {x : Json} {xs : List Json} (hx : x.AllNumbers P)
    (level : Nat) (rest : List Char) : ∃ c tail,
      skipSpace (laidItems s number level (x :: xs) ++ rest) = c :: tail ∧ c ≠ ']' := by
  obtain ⟨c, tail, hlaid, hspace, hc⟩ := laid_head (s := s) hf hx (level + 1)
  cases xs with
  | nil =>
    refine ⟨c, tail ++ rest, ?_, hc⟩
    rw [laidItems, List.append_assoc, skipSpace_append (s.gap_blank _), hlaid]
    exact skipSpace_cons hspace _
  | cons y xs =>
    refine ⟨c, tail ++ ',' :: laidItems s number level (y :: xs) ++ rest, ?_, hc⟩
    rw [laidItems, List.append_assoc, skipSpace_append (s.gap_blank _), hlaid]
    exact skipSpace_cons hspace _

theorem laidMembers_head (w : Number → List Char) (m : String × Json)
    (ms : List (String × Json)) (level : Nat) (rest : List Char) : ∃ tail,
      skipSpace (laidMembers s w level (m :: ms) ++ rest) = '"' :: tail := by
  cases ms <;>
    simp only [laidMembers, List.append_assoc, skipSpace_append (s.gap_blank _), quote_append] <;>
    exact ⟨_, rfl⟩

theorem endsNumber_gap (level : Nat) {c : Char}
    (hc : c.isDigit = false ∧ c ≠ '.' ∧ c ≠ 'e' ∧ c ≠ 'E') (rest : List Char) :
    EndsNumber (s.gap level ++ c :: rest) :=
  endsNumber_blank (s.gap_blank level) fun d hd => by
    obtain rfl : c = d := by simpa using hd
    exact hc

mutual
/-- The text of a value is read as the draft of the value, up to its end. -/
theorem readValue_laid (hf : Rereads number f P) (level : Nat) : (v : Json) → v.AllNumbers P →
    ∀ bound rest, 2 * (v.laid s number level).length ≤ bound → EndsNumber rest →
      readValue bound (v.laid s number level ++ rest) = (ofJson (v.mapNumbers f), some rest)
  | .null, _, bound + 1, rest, _, _ => by
    simp [laid, readValue, skipSpace, isSpace, readWord, leaf, Except.map, Json.mapNumbers, ofJson]
  | .bool true, _, bound + 1, rest, _, _ => by
    simp [laid, readValue, skipSpace, isSpace, readWord, leaf, Except.map, Json.mapNumbers, ofJson]
  | .bool false, _, bound + 1, rest, _, _ => by
    simp [laid, readValue, skipSpace, isSpace, readWord, leaf, Except.map, Json.mapNumbers, ofJson]
  | .num n, hn, 0, _, hbound, _ => by
    obtain ⟨c, tail, hlaid, -⟩ := laid_head (s := s) (v := .num n) hf hn level
    simp [hlaid] at hbound
  | .num n, hn, bound + 1, rest, _, hrest => by
    have hread := hf n hn rest hrest
    obtain ⟨c, tail, hchars, hc⟩ := readNumber_head hread
    rw [laid, hchars, readValue_number hc, ← hchars, hread]
    rfl
  | .str t, _, bound + 1, rest, _, _ => by
    have hquote : isSpace '"' = false := rfl
    rw [laid, quote_append, readValue, skipSpace_cons hquote]
    simp only [readString_escaped]
    rfl
  | .arr [], _, bound + 1, rest, _, _ => by
    simp [laid, readValue, skipSpace, isSpace, Json.mapNumbers, Json.mapItemNumbers, ofJson,
      ofItems]
  | .arr (x :: xs), hv, bound + 1, rest, hbound, _ => by
    obtain ⟨c, tail, hhead, hc⟩ := laidItems_head (s := s) hf hv.2.1 level
      (s.gap level ++ ']' :: rest)
    have hitems := readItems_laid hf level (x :: xs) (List.cons_ne_nil _ _) hv.2 bound rest (by
        simp [laid] at hbound
        omega)
    rw [laid, List.cons_append, List.append_assoc, List.append_assoc, List.singleton_append,
      readValue_bracket hhead hc, hitems]
    rfl
  | .obj [], _, bound + 1, rest, _, _ => by
    simp [laid, readValue, skipSpace, isSpace, Json.mapNumbers, Json.mapMemberNumbers, ofJson,
      ofMembers]
  | .obj (m :: ms), hv, bound + 1, rest, hbound, _ => by
    obtain ⟨tail, hhead⟩ := laidMembers_head (s := s) number m ms level
      (s.gap level ++ '\x7d' :: rest)
    have hmembers := readMembers_laid hf level (m :: ms) (List.cons_ne_nil _ _) hv.2 bound rest (by
        simp [laid] at hbound
        omega)
    rw [laid, List.cons_append, List.append_assoc, List.append_assoc, List.singleton_append,
      readValue_brace hhead, hmembers]
    rfl
theorem readItems_laid (hf : Rereads number f P) (level : Nat) : (xs : List Json) → xs ≠ [] →
    ItemsEverywhere (NumberIs P) xs →
    ∀ bound rest, 2 * (laidItems s number level xs).length < bound →
      readItems bound (laidItems s number level xs ++ (s.gap level ++ ']' :: rest)) =
        (ofItems (Json.mapItemNumbers f xs), none, some rest)
  | [x], _, hx, bound + 1, rest, hbound => by
    have hitem := readValue_laid hf (level + 1) x hx.1 bound
      (s.gap level ++ ']' :: rest) (by
        simp [laidItems] at hbound
        omega) (endsNumber_gap level (by decide) rest)
    rw [laidItems, List.append_assoc, ← readItems_skipSpace, skipSpace_append (s.gap_blank _),
      readItems_skipSpace, readItems_last hitem (skipSpace_append (s.gap_blank _) _)]
    rfl
  | x :: y :: xs, _, hx, bound + 1, rest, hbound => by
    have hitem := readValue_laid hf (level + 1) x hx.1 bound
      (',' :: (laidItems s number level (y :: xs) ++ (s.gap level ++ ']' :: rest))) (by
        simp [laidItems] at hbound
        omega) (endsNumber_gap (s := .none) level (by decide) _)
    have hmore := readItems_laid hf level (y :: xs) (List.cons_ne_nil _ _) hx.2 bound rest (by
        simp [laidItems] at hbound ⊢
        omega)
    obtain ⟨c, tail, hhead, hc⟩ := laidItems_head (s := s) hf hx.2.1 level
      (s.gap level ++ ']' :: rest)
    rw [laidItems, List.append_assoc, ← readItems_skipSpace, skipSpace_append (s.gap_blank _),
      readItems_skipSpace, List.append_assoc, List.cons_append,
      readItems_more hitem (skipSpace_cons rfl _) hhead hc, hmore]
    rfl
theorem readMembers_laid (hf : Rereads number f P) (level : Nat) :
    (ms : List (String × Json)) → ms ≠ [] → MembersEverywhere (NumberIs P) ms → ∀ bound rest,
    2 * (laidMembers s number level ms).length < bound →
      readMembers bound
          (skipSpace (laidMembers s number level ms ++ (s.gap level ++ '\x7d' :: rest))) =
        (ofMembers (Json.mapMemberNumbers f ms), .closed, some rest)
  | [(k, v)], _, hv, bound + 1, rest, hbound => by
    have hquote : isSpace '"' = false := rfl
    have hvalue := readValue_laid hf (level + 1) v hv.1 bound
      (s.gap level ++ '\x7d' :: rest) (by
        simp [laidMembers] at hbound
        omega) (endsNumber_gap level (by decide) rest)
    rw [← readValue_skipSpace, ← skipSpace_append s.afterColon_blank, readValue_skipSpace] at hvalue
    simp only [laidMembers, List.append_assoc, skipSpace_append (s.gap_blank _), quote_append,
      skipSpace_cons hquote, List.cons_append]
    rw [readMembers_last (readString_escaped k _) hvalue (skipSpace_append (s.gap_blank _) _)]
    rfl
  | (k, v) :: m :: ms, _, hv, bound + 1, rest, hbound => by
    have hquote : isSpace '"' = false := rfl
    have hvalue := readValue_laid hf (level + 1) v hv.1 bound
      (',' :: (laidMembers s number level (m :: ms) ++ (s.gap level ++ '\x7d' :: rest))) (by
        simp [laidMembers] at hbound
        omega) (endsNumber_gap (s := .none) level (by decide) _)
    have hmore := readMembers_laid hf level (m :: ms) (List.cons_ne_nil _ _) hv.2 bound rest (by
        simp [laidMembers] at hbound ⊢
        omega)
    rw [← readValue_skipSpace, ← skipSpace_append s.afterColon_blank, readValue_skipSpace] at hvalue
    simp only [laidMembers, List.append_assoc, skipSpace_append (s.gap_blank _), quote_append,
      skipSpace_cons hquote, List.cons_append]
    rw [readMembers_more (readString_escaped k _) hvalue (skipSpace_cons rfl _), hmore]
    rfl
end

end Laid

/-- The text of a value holds the value, with its numbers as they are read, and nothing else. -/
theorem ofText_laid {s : Json.Spacing} {number : Number → List Char} {f : Number → Number}
    {P : Number → Prop} (hf : Rereads number f P) {v : Json} (hv : v.AllNumbers P) :
    ofText (String.ofList (v.laid s number 0)) = (ofJson (v.mapNumbers f), none) := by
  have hread := readValue_laid (s := s) hf 0 v hv (2 * (v.laid s number 0).length + 2) []
    (by omega) endsNumber_nil
  rw [List.append_nil] at hread
  simp [ofText, hread, skipSpace]

end Draft

namespace Json

mutual
theorem mapNumbers_id : (v : Json) → v.mapNumbers id = v
  | .null | .bool _ | .str _ | .num _ => rfl
  | .arr xs => by rw [mapNumbers, mapItemNumbers_id xs]
  | .obj ms => by rw [mapNumbers, mapMemberNumbers_id ms]
theorem mapItemNumbers_id : (xs : List Json) → mapItemNumbers id xs = xs
  | [] => rfl
  | x :: xs => by rw [mapItemNumbers, mapNumbers_id x, mapItemNumbers_id xs]
theorem mapMemberNumbers_id : (ms : List (String × Json)) → mapMemberNumbers id ms = ms
  | [] => rfl
  | (_, v) :: ms => by rw [mapMemberNumbers, mapNumbers_id v, mapMemberNumbers_id ms]
end

/-- A value all of whose numbers the text of a document can hold. -/
abbrev Exact (v : Json) : Prop := v.AllNumbers Number.Exact

theorem ofText_pretty {v : Json} (hv : v.Exact) :
    Draft.ofText v.pretty = (Draft.ofJson v, none) := by
  rw [pretty, prettyChars_eq_laid, Draft.ofText_laid Draft.rereads_json hv, mapNumbers_id]

end Json

end ShellSettings
