import ShellSettings.Disk.FilePath

/-!
# Paths and their pieces

A path and its pieces say the same (`pieces_ofPieces`), and the path beside
another differs from it in its last name alone (`withExtension_beside`).
-/

namespace ShellSettings.FilePath

variable {p : FilePath} {absolute : Bool} {pieces above blanks : List String}
  {name name' piece extension : String}

-- ---------------------------------------------------------------------------
-- Splitting and joining
-- ---------------------------------------------------------------------------

theorem splitSlashes_eq (cs : List Char) : splitSlashes cs = cs.splitOn '/' := by
  induction cs with
  | nil => rfl
  | cons c cs ih =>
    rw [splitSlashes, ih, List.splitOn_cons_eq_if_modifyHead]
    by_cases hc : c = '/'
    · simp [hc]
    · rw [if_neg hc, if_neg (by simpa using hc)]
      cases h : cs.splitOn '/' with
      | nil => exact absurd h (List.splitOn_ne_nil '/' cs)
      | cons first rest => rfl

theorem slash_notMem_of_splitSlashes {cs piece : List Char} (h : piece ∈ splitSlashes cs) :
    '/' ∉ piece := by
  induction cs generalizing piece with
  | nil => simp_all [splitSlashes]
  | cons c cs ih =>
    unfold splitSlashes at h
    split at h
    · rcases List.mem_cons.mp h with rfl | h
      · exact List.not_mem_nil
      · exact ih h
    · rename_i hc
      cases hs : splitSlashes cs with
      | nil => exact absurd (splitSlashes_eq cs ▸ hs) (List.splitOn_ne_nil '/' cs)
      | cons first rest =>
        rw [hs] at h ih
        rcases List.mem_cons.mp h with rfl | h
        · exact List.not_mem_cons_of_ne_of_not_mem (Ne.symm hc) (ih List.mem_cons_self)
        · exact ih (List.mem_cons_of_mem _ h)

/-- Pieces that a path can have: a relative path begins with a name. -/
structure WellPieced (absolute : Bool) (pieces : List String) : Prop where
  noSlash : ∀ piece ∈ pieces, '/' ∉ piece.toList
  start : absolute = false → pieces.head? = some "" → pieces = [""]

theorem WellPieced.init (h : WellPieced absolute (pieces ++ [piece])) :
    WellPieced absolute pieces := by
  refine ⟨fun q hq => h.noSlash q (List.mem_append_left _ hq), fun ha hhead => ?_⟩
  cases pieces with
  | nil => cases hhead
  | cons first rest => simpa using h.start ha hhead

theorem toList_ofPieces (absolute : Bool) (pieces : List String) :
    (ofPieces absolute pieces).text.toList =
      (if absolute then ['/'] else []) ++ ['/'].intercalate (pieces.map String.toList) := by
  cases absolute <;> simp [ofPieces, String.toList_intercalate]

theorem splitSlashes_intercalate (hpieces : pieces ≠ [])
    (h : ∀ piece ∈ pieces, '/' ∉ piece.toList) :
    (splitSlashes (['/'].intercalate (pieces.map String.toList))).map String.ofList = pieces := by
  rw [splitSlashes_eq, List.splitOn_intercalate '/' (by simpa using h) (by simpa using hpieces)]
  simp

theorem pieces_ofPieces (hpieces : pieces ≠ []) (h : WellPieced absolute pieces) :
    (ofPieces absolute pieces).isAbsolute = absolute ∧
      (ofPieces absolute pieces).pieces = pieces := by
  have hsplit := splitSlashes_intercalate hpieces h.noSlash
  have habsolute : (ofPieces absolute pieces).isAbsolute = absolute := by
    rw [isAbsolute, toList_ofPieces]
    cases absolute with
    | true => rfl
    | false =>
      obtain ⟨first, rest, rfl⟩ := List.exists_cons_of_ne_nil hpieces
      have hslash := h.noSlash first List.mem_cons_self
      cases hfirst : first.toList with
      | nil =>
        obtain rfl := String.toList_eq_nil_iff.mp hfirst
        obtain rfl : rest = [] := by simpa using h.start rfl rfl
        rfl
      | cons c cs =>
        have hc : c ≠ '/' := fun hc => hslash (by simp [hfirst, hc])
        cases rest <;> simp [List.intercalate, hfirst, hc]
  refine ⟨habsolute, ?_⟩
  rw [FilePath.pieces, habsolute, toList_ofPieces]
  cases absolute <;> simpa using hsplit

theorem wellPieced (p : FilePath) : WellPieced p.isAbsolute p.pieces := by
  refine ⟨fun piece h => ?_, fun hrelative hstart => ?_⟩
  · obtain ⟨cs, hcs, rfl⟩ := List.mem_map.mp h
    simpa using slash_notMem_of_splitSlashes hcs
  · cases htext : p.text.toList with
    | nil => simp [FilePath.pieces, isAbsolute, htext, splitSlashes]
    | cons c cs =>
      have hc : c ≠ '/' := by simpa [isAbsolute, htext] using hrelative
      obtain ⟨first, rest, h⟩ := List.exists_cons_of_ne_nil (List.splitOn_ne_nil '/' cs)
      rw [← splitSlashes_eq] at h
      simp [FilePath.pieces, hrelative, htext, splitSlashes, hc, h] at hstart

-- ---------------------------------------------------------------------------
-- The last name
-- ---------------------------------------------------------------------------

theorem dropWhile_append_cons {P : String → Bool} (hblanks : ∀ b ∈ blanks, P b = true)
    (hname : P name = false) :
    (above ++ name :: blanks).reverse.dropWhile P = name :: above.reverse := by
  rw [List.reverse_append, List.reverse_cons, List.append_assoc,
    List.dropWhile_append_of_pos (by simpa using hblanks)]
  simp [hname]

theorem exists_of_lastName? (h : p.lastName? = some name) :
    ∃ above blanks, p.pieces = above ++ name :: blanks ∧ (∀ b ∈ blanks, b = "") ∧
      isIdle name = false ∧ name ≠ ".." := by
  unfold lastName? at h
  split at h
  · cases h
  · rename_i last above hdrop
    split at h
    · cases h
    · rename_i hlast
      cases h
      have hsplit := List.takeWhile_append_dropWhile (p := (· == "")) (l := p.pieces.reverse)
      have hblanks : ∀ b ∈ p.pieces.reverse.takeWhile (· == ""), b = "" := fun b hb =>
        beq_iff_eq.mp (List.all_eq_true.mp List.all_takeWhile b hb)
      have hname : name ≠ "" := by
        have := List.head_dropWhile_not (· == "") (l := p.pieces.reverse) (by simp [hdrop])
        simpa [hdrop] using this
      rw [hdrop] at hsplit
      refine ⟨above.reverse, (p.pieces.reverse.takeWhile (· == "")).reverse, ?_,
        by simpa using hblanks, ?_, ?_⟩
      · simpa using congrArg List.reverse hsplit.symm
      · simp_all [isIdle]
      · simp_all

theorem names_eq (hp : p.pieces = above ++ name :: blanks) (hblanks : ∀ b ∈ blanks, b = "")
    (hname : isIdle name = false) :
    p.names = above.filter (fun piece => !isIdle piece) ++ [name] := by
  have hnone : blanks.filter (fun piece => !isIdle piece) = [] :=
    List.filter_eq_nil_iff.mpr fun b hb => by simp [hblanks b hb, isIdle]
  simp [names, hp, hname, hnone]

theorem lastName?_eq (hp : p.pieces = above ++ name :: blanks) (hblanks : ∀ b ∈ blanks, b = "")
    (hname : isIdle name = false) : p.lastName? = if name = ".." then none else some name := by
  have hidle : name ≠ "" ∧ name ≠ "." := by simpa [isIdle] using hname
  unfold lastName?
  rw [hp, dropWhile_append_cons (by simpa using hblanks) (by simpa using hidle.1)]
  simp [hidle.2]

theorem stem_append {base : String} (hbase : base ≠ "") (hdot : '.' ∉ extension.toList) :
    stem (base ++ "." ++ extension) = base := by
  have hreverse : (base ++ "." ++ extension).toList.reverse =
      extension.toList.reverse ++ '.' :: base.toList.reverse := by simp
  have hdrop : (extension.toList.reverse ++ '.' :: base.toList.reverse).dropWhile (· != '.') =
      '.' :: base.toList.reverse := by
    rw [List.dropWhile_append_of_pos (fun c hc => ?_)]
    · simp
    · simpa using fun h : c = '.' => hdot (h ▸ List.mem_reverse.mp hc)
  unfold stem
  simp only [hreverse, hdrop, List.drop_one, List.tail_cons]
  split
  · simp_all
  · simp

theorem slash_notMem_stem (h : '/' ∉ name.toList) : '/' ∉ (stem name).toList := by
  unfold stem
  simp only
  split
  · exact h
  · intro hslash
    rw [String.toList_ofList, List.mem_reverse] at hslash
    have hdrop := List.mem_of_mem_drop hslash
    exact h (List.mem_reverse.mp ((List.dropWhile_suffix _).mem hdrop))

theorem isIdle_stem (h : isIdle name = false) :
    isIdle (stem name ++ "." ++ extension) = false := by
  have hname : name ≠ "" := by
    rintro rfl
    cases h
  have hstem : (stem name).length ≠ 0 := by
    unfold stem
    dsimp only
    split
    · simpa using hname
    · rename_i hfront
      rw [String.length_ofList, List.length_reverse]
      exact fun h => hfront (List.eq_nil_of_length_eq_zero h)
  have hlong : ∀ short : String, short.length ≤ 1 → stem name ++ "." ++ extension ≠ short := by
    rintro short hshort rfl
    have hdot : ".".length = 1 := rfl
    simp only [String.length_append, hdot] at hshort
    omega
  simp [isIdle, hlong "" (by decide), hlong "." (by decide)]

/-- The path beside another, where it ends in a name, is in the same directory. -/
theorem withExtension_beside (hslash : '/' ∉ extension.toList) (h : p.lastName? = some name)
    (h' : (p.withExtension extension).lastName? = some name') :
    (p.withExtension extension).isAbsolute = p.isAbsolute ∧
      (p.withExtension extension).names.dropLast = p.names.dropLast ∧
      name' = stem name ++ "." ++ extension := by
  obtain ⟨above, blanks, hp, hblanks, hname, hup⟩ := exists_of_lastName? h
  have hidle : ∀ b ∈ blanks, isIdle b = true := fun b hb => by simp [hblanks b hb, isIdle]
  have hback : p.backward = name :: above.reverse := by
    rw [backward, hp, dropWhile_append_cons hidle hname]
  obtain ⟨last, hlast, hbeside⟩ : ∃ last, (last = ".." ∨ last = stem name ++ "." ++ extension) ∧
      p.withExtension extension = ofPieces p.isAbsolute (above ++ [last]) := by
    unfold withExtension
    rw [hback]
    split
    · simp_all
    · simp_all
    · rename_i heq
      obtain ⟨rfl, rfl⟩ := List.cons.inj heq
      refine ⟨if isDotted name && p.pieces.getLast? == some name then ".."
        else stem name ++ "." ++ extension, ?_, ?_⟩
      · split
        · exact .inl rfl
        · exact .inr rfl
      · dsimp only
        rw [List.reverse_cons, List.reverse_reverse]
  have hpieces := p.wellPieced
  rw [hp] at hpieces
  have hlastSlash : '/' ∉ last.toList := by
    rcases hlast with rfl | rfl
    · decide
    · have := slash_notMem_stem (hpieces.noSlash name (by simp))
      simp [this, hslash]
  have hwell : WellPieced p.isAbsolute (above ++ [last]) := by
    refine ⟨fun piece hpiece => ?_, fun hrelative hstart => ?_⟩
    · rcases List.mem_append.mp hpiece with hpiece | hpiece
      · exact hpieces.noSlash piece (List.mem_append_left _ hpiece)
      · exact List.mem_singleton.mp hpiece ▸ hlastSlash
    · cases above with
      | nil => simpa using hstart
      | cons first rest => simpa [isIdle] using hpieces.start hrelative hstart
  obtain ⟨habsolute, hof⟩ := pieces_ofPieces (by simp) hwell
  rw [hbeside] at h' ⊢
  have hidleLast : isIdle last = false := by
    rcases hlast with rfl | rfl
    · rfl
    · exact isIdle_stem hname
  rw [lastName?_eq hof nofun hidleLast] at h'
  rw [names_eq hof nofun hidleLast, names_eq hp hblanks hname]
  refine ⟨habsolute, by simp, ?_⟩
  rcases hlast with rfl | rfl
  · simp at h'
  · split at h' <;> simp_all

end ShellSettings.FilePath
