import ShellSettings.Proofs.Disk.FileTreeLaws
import ShellSettings.Proofs.Disk.PathLaws

/-!
# Making directories twice

What could not be made the first time cannot be made the second time either, so
once the directories of a path were tried, trying them again changes nothing
(`ensureDirectories_again`).
-/

namespace ShellSettings.FileTree

open FilePath (WellPieced ofPieces isIdle)

variable {t t' t'' : FileTree} {q : Place} {p : FilePath} {absolute : Bool} {error : IoError}
  {pieces above : List String} {piece : String}

-- ---------------------------------------------------------------------------
-- Names one by one
-- ---------------------------------------------------------------------------

def walk (t : FileTree) (absolute : Bool) (pieces : List String) : Except IoError Place :=
  (pieces.filter fun piece => !isIdle piece).foldlM t.step (if absolute then [] else t.base)

theorem walk_concat (hpiece : isIdle piece = false) :
    t.walk absolute (pieces ++ [piece]) = .ok q ↔
      ∃ place, t.walk absolute pieces = .ok place ∧ t.step place piece = .ok q := by
  have hfilter : (pieces ++ [piece]).filter (fun piece => !isIdle piece) =
      pieces.filter (fun piece => !isIdle piece) ++ [piece] := by simp [hpiece]
  rw [walk, hfilter, List.foldlM_append]
  constructor
  · intro h
    obtain ⟨place, hplace, h⟩ := bind_eq_ok h
    obtain ⟨_, h, hnil⟩ := bind_eq_ok h
    cases hnil
    exact ⟨place, hplace, h⟩
  · rintro ⟨place, hplace, h⟩
    rw [walk] at hplace
    simp [hplace, ok_bind, h, List.foldlM]

theorem walk_idle (hpiece : isIdle piece = true) :
    t.walk absolute (pieces ++ [piece]) = t.walk absolute pieces := by
  simp [walk, hpiece]

theorem locate_iff : t.locate p = .ok q ↔ textFault? p = none ∧
    t.walk p.isAbsolute p.pieces = .ok q ∧
      (p.lastName? = none → t.entry? q = some .directory) := by
  rw [locate_eq_ok]
  simp only [approach_eq_ok]
  cases hlast : p.lastName? with
  | none => simp [walk, FilePath.names]
  | some name =>
    obtain ⟨above, blanks, hp, hblanks, hname, -⟩ := FilePath.exists_of_lastName? hlast
    have hnames := FilePath.names_eq hp hblanks hname
    have hwalk : t.walk p.isAbsolute p.pieces = t.walk p.isAbsolute (above ++ [name]) := by
      rw [walk, ← FilePath.names, hnames, walk]
      simp [hname]
    rw [hwalk, walk_concat hname]
    simp only [hnames, List.dropLast_concat, walk, Option.isSome_some, if_true]
    constructor
    · rintro (⟨-, hfalse, -⟩ | ⟨place, _, ⟨hfault, hname', hway, -⟩, hstep⟩)
      · cases hfalse
      · cases hname'
        exact ⟨hfault, ⟨place, hway, hstep⟩, by simp⟩
    · rintro ⟨hfault, ⟨place, hway, hstep⟩, -⟩
      exact .inr ⟨place, name, ⟨hfault, rfl, hway, entry?_of_step hstep⟩, hstep⟩

theorem isDirectory_iff : t.isDirectory p = true ↔ textFault? p = none ∧
    ∃ q, t.walk p.isAbsolute p.pieces = .ok q ∧ t.entry? q = some .directory := by
  simp only [isDirectory_eq_true, find_eq_directory, locate_iff]
  constructor
  · rintro ⟨q, ⟨hfault, hwalk, -⟩, hentry⟩
    exact ⟨hfault, q, hwalk, hentry⟩
  · rintro ⟨hfault, q, hwalk, hentry⟩
    exact ⟨q, ⟨hfault, hwalk, fun _ => hentry⟩, hentry⟩

-- ---------------------------------------------------------------------------
-- Texts of shorter paths
-- ---------------------------------------------------------------------------

/-- Nothing but being empty can be wrong with the text of a path of these pieces. -/
def Fits (absolute : Bool) (pieces : List String) : Prop :=
  '\x00' ∉ (ofPieces absolute pieces).text.toList ∧
    (ofPieces absolute pieces).text.utf8ByteSize ≤ pathLimit

theorem Fits.init (h : Fits absolute (pieces ++ [piece])) : Fits absolute pieces := by
  cases pieces with
  | nil =>
    refine ⟨?_, ?_⟩ <;> cases absolute <;> decide
  | cons first rest =>
    have htext : (ofPieces absolute (first :: rest ++ [piece])).text =
        (ofPieces absolute (first :: rest)).text ++ ("/" ++ piece) := by
      simp only [ofPieces]
      rw [String.intercalate_append_of_ne_nil (by simp) (by simp), String.intercalate_singleton]
      simp only [String.append_assoc]
    obtain ⟨hnul, hsize⟩ := h
    rw [htext] at hnul hsize
    rw [String.utf8ByteSize_append] at hsize
    refine ⟨fun h => hnul (by rw [String.toList_append]; exact List.mem_append_left _ h), by omega⟩

theorem fits_of_textFault? (h : textFault? (ofPieces absolute pieces) = none) :
    Fits absolute pieces := by
  unfold textFault? at h
  repeat' split at h
  all_goals try cases h
  rename_i hnul _ hsize
  exact ⟨by simpa using hnul, by simpa using hsize⟩

theorem Fits.textFault? (h : Fits absolute (pieces ++ [piece]))
    (hwell : WellPieced absolute (pieces ++ [piece])) (hpiece : isIdle piece = false) :
    FileTree.textFault? (ofPieces absolute (pieces ++ [piece])) = none := by
  have hne : (ofPieces absolute (pieces ++ [piece])).text ≠ "" := by
    intro hempty
    have hof := (FilePath.pieces_ofPieces (by simp) hwell).2
    simp only [FilePath.pieces, FilePath.isAbsolute, hempty] at hof
    have hlast := congrArg List.getLast? hof
    rw [List.getLast?_concat] at hlast
    cases hlast
    cases hpiece
  simp [FileTree.textFault?, h.1, hne, h.2]

-- ---------------------------------------------------------------------------
-- Trying again
-- ---------------------------------------------------------------------------

theorem isDirectory_of_ensureDirectory (h : ensureDirectory p t = (.ok (), t')) :
    t'.isDirectory p = true := by
  rcases ensureDirectory_cases p t with ⟨_, h', hdirectory, -⟩ | ⟨e, h', -⟩
  · cases h.symm.trans h'
    exact hdirectory
  · cases h.symm.trans h'

theorem ensureDirectory_of_isDirectory (h : t.isDirectory p = true) :
    ensureDirectory p t = (.ok (), t) := by
  rcases ensureDirectory_cases p t with ⟨t', he, -, rfl | ⟨q, hl, hq, -⟩⟩ | ⟨e, -, hnot⟩
  · exact he
  · obtain ⟨q', hl', hq'⟩ := find_eq_directory.mp (isDirectory_eq_true.mp h)
    cases hl.symm.trans hl'
    cases hq.symm.trans hq'
  · cases hnot.symm.trans h

/-- Every way in which a directory is ensured with those above it: at once, after those above it,
or not, because it cannot be made or those above it cannot. -/
theorem ensurePieces_cases (hpiece : isIdle piece = false) (t : FileTree) :
    (∃ t', ensurePieces absolute (piece :: above) t = (.ok (), t') ∧
      ensureDirectory (ofPieces absolute (above.reverse ++ [piece])) t = (.ok (), t')) ∨
    (∃ e, ensurePieces absolute (piece :: above) t = (.error e, t) ∧
      ensureDirectory (ofPieces absolute (above.reverse ++ [piece])) t = (.error e, t)) ∨
    ensureDirectory (ofPieces absolute (above.reverse ++ [piece])) t = (.error .noEntry, t) ∧
      ((∃ e t₁, ensurePieces absolute (piece :: above) t = (.error e, t₁) ∧
        ensurePieces absolute above t = (.error e, t₁)) ∨
      ∃ t₁, ensurePieces absolute above t = (.ok (), t₁) ∧
        ensurePieces absolute (piece :: above) t =
          ensureDirectory (ofPieces absolute (above.reverse ++ [piece])) t₁) := by
  simp only [ensurePieces, hpiece, Bool.false_eq_true, if_false, List.reverse_cons]
  generalize ofPieces absolute (above.reverse ++ [piece]) = p
  rcases ensureDirectory_cases p t with ⟨t', h, -⟩ | ⟨e, h, -⟩
  · exact .inl ⟨t', by rw [h], h⟩
  · by_cases he : e = .noEntry
    · subst he
      refine .inr (.inr ⟨h, ?_⟩)
      rcases habove : ensurePieces absolute above t with ⟨e | _, t₁⟩
      · exact .inl ⟨e, t₁, by simp only [h, habove], rfl⟩
      · exact .inr ⟨t₁, rfl, by simp only [h, habove]⟩
    · refine .inr (.inl ⟨e, ?_, h⟩)
      rw [h]
      cases e <;> first | rfl | exact absurd rfl he

theorem not_directory_of_ensurePieces (hwell : WellPieced absolute pieces.reverse)
    (hfits : Fits absolute pieces.reverse)
    (h : ensurePieces absolute pieces t = (.error error, t')) :
    ¬ ∃ q, t'.walk absolute pieces.reverse = .ok q ∧ t'.entry? q = some .directory := by
  induction pieces generalizing t error with
  | nil => cases h
  | cons piece above ih =>
    simp only [List.reverse_cons] at hwell hfits ⊢
    cases hpiece : isIdle piece with
    | true =>
      rw [walk_idle hpiece]
      simp only [ensurePieces, hpiece, if_true] at h
      exact ih hwell.init hfits.init h
    | false =>
      obtain ⟨habsolute, hpieces⟩ := FilePath.pieces_ofPieces (by simp) hwell
      have hdirectory :=
        isDirectory_iff (t := t') (p := ofPieces absolute (above.reverse ++ [piece]))
      rw [habsolute, hpieces, hfits.textFault? hwell hpiece, eq_self, true_and] at hdirectory
      rw [← hdirectory]
      rcases ensurePieces_cases hpiece t with ⟨_, hr, -⟩ | ⟨e, hr, he⟩ |
        ⟨-, ⟨e, t₁, hr, habove⟩ | ⟨t₁, -, hr⟩⟩
      · cases hr.symm.trans h
      · cases hr.symm.trans h
        intro hyes
        cases he.symm.trans (ensureDirectory_of_isDirectory hyes)
      · cases hr.symm.trans h
        rw [hdirectory]
        rintro ⟨q, hwalk, -⟩
        obtain ⟨place, hplace, hstep⟩ := (walk_concat hpiece).mp hwalk
        exact ih hwell.init hfits.init habove ⟨place, hplace, entry?_of_step hstep⟩
      · rw [hr] at h
        rcases ensureDirectory_cases (ofPieces absolute (above.reverse ++ [piece])) t₁ with
          ⟨t₂, he, -⟩ | ⟨e, he, hnot⟩
        · cases he.symm.trans h
        · cases he.symm.trans h
          simp [hnot]

theorem ensurePieces_of_isDirectory (hpiece : isIdle piece = false)
    (h : t.isDirectory (ofPieces absolute (above.reverse ++ [piece])) = true) :
    (ensurePieces absolute (piece :: above) t).2 = t := by
  have hensured := ensureDirectory_of_isDirectory h
  rcases ensurePieces_cases hpiece t with ⟨t', hr, he⟩ | ⟨e, hr, -⟩ | ⟨he, -⟩
  · rw [hr]
    cases he.symm.trans hensured
    rfl
  · rw [hr]
  · cases he.symm.trans hensured

/-- Once the directories above were tried, trying changes nothing unless the directory itself can
be made by now. -/
theorem ensurePieces_settled (hpiece : isIdle piece = false)
    (habove : (ensurePieces absolute above t).2 = t)
    (hmade : ∀ t', ensureDirectory (ofPieces absolute (above.reverse ++ [piece])) t = (.ok (), t') →
      t' = t) : (ensurePieces absolute (piece :: above) t).2 = t := by
  rcases ensurePieces_cases hpiece t with ⟨t', hr, he⟩ | ⟨e, hr, -⟩ |
    ⟨he, ⟨e, t₁, hr, ht₁⟩ | ⟨t₁, ht₁, hr⟩⟩
  · rw [hr, hmade t' he]
  · rw [hr]
  · rw [hr, ← habove, ht₁]
  · obtain rfl : t₁ = t := by rw [← habove, ht₁]
    rw [hr, he]

theorem ensurePieces_again (hwell : WellPieced absolute pieces.reverse) (t : FileTree) :
    (ensurePieces absolute pieces (ensurePieces absolute pieces t).2).2 =
      (ensurePieces absolute pieces t).2 := by
  induction pieces generalizing t with
  | nil => rfl
  | cons piece above ih =>
    simp only [List.reverse_cons] at hwell
    cases hpiece : isIdle piece with
    | true =>
      simp only [ensurePieces, hpiece, if_true]
      exact ih hwell.init t
    | false =>
      have hsecond := ih hwell.init t
      rcases ensurePieces_cases hpiece t with ⟨t', hr, he⟩ | ⟨e, hr, -⟩ |
        ⟨-, ⟨e, t₁, hr, habove⟩ | ⟨t₁, habove, hr⟩⟩
      · rw [hr]
        exact ensurePieces_of_isDirectory hpiece (isDirectory_of_ensureDirectory he)
      · rw [hr, hr]
      · -- Those above could not be made, so this one cannot be made now.
        rw [habove] at hsecond
        rw [hr]
        refine ensurePieces_settled hpiece hsecond fun t' h => ?_
        rcases ensureDirectory_cases (ofPieces absolute (above.reverse ++ [piece])) t₁ with
          ⟨t₂, h', hdirectory, rfl | ⟨q, hl, -⟩⟩ | ⟨e, h', -⟩
        · cases h.symm.trans h'
          rfl
        · obtain ⟨habsolute, hpieces⟩ := FilePath.pieces_ofPieces (by simp) hwell
          obtain ⟨hfault, hwalk, -⟩ := locate_iff.mp hl
          rw [habsolute, hpieces] at hwalk
          obtain ⟨place, hplace, hstep⟩ := (walk_concat hpiece).mp hwalk
          exact absurd ⟨place, hplace, entry?_of_step hstep⟩
            (not_directory_of_ensurePieces hwell.init (fits_of_textFault? hfault).init habove)
        · cases h.symm.trans h'
      · rw [habove] at hsecond
        rw [hr]
        rcases ensureDirectory_cases (ofPieces absolute (above.reverse ++ [piece])) t₁ with
          ⟨t₂, h, hdirectory, -⟩ | ⟨e, h, -⟩
        · rw [h]
          exact ensurePieces_of_isDirectory hpiece hdirectory
        · rw [h]
          refine ensurePieces_settled hpiece hsecond fun t' h' => ?_
          cases h'.symm.trans h

theorem ensurePieces_keeps (h : ensurePieces absolute pieces t = (.ok (), t'))
    (hkeeps : t'.KeepsDirectories t'') : (ensurePieces absolute pieces t'').2 = t'' := by
  induction pieces generalizing t with
  | nil => rfl
  | cons piece above ih =>
    cases hpiece : isIdle piece with
    | true =>
      simp only [ensurePieces, hpiece, if_true] at h ⊢
      exact ih h
    | false =>
      refine ensurePieces_of_isDirectory hpiece (hkeeps.isDirectory ?_)
      rcases ensurePieces_cases hpiece t with ⟨t₁, hr, he⟩ | ⟨e, hr, -⟩ |
        ⟨-, ⟨e, t₁, hr, -⟩ | ⟨t₁, -, hr⟩⟩
      · cases hr.symm.trans h
        exact isDirectory_of_ensureDirectory he
      · cases hr.symm.trans h
      · cases hr.symm.trans h
      · exact isDirectory_of_ensureDirectory (hr.symm.trans h)

theorem ensureDirectories_again (p : FilePath) (t : FileTree) :
    (ensureDirectories p (ensureDirectories p t).2).2 = (ensureDirectories p t).2 :=
  ensurePieces_again (by simpa using p.wellPieced) t

end ShellSettings.FileTree
