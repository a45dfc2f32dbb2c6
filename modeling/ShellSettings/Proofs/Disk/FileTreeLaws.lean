import ShellSettings.Disk.FileTree
import ShellSettings.Proofs.Json.RecordLaws

/-!
# What file operations do

A path leads to the same place as long as no directory on its way is lost
(`KeepsDirectories`), and none is by writing or moving files. So a text that was
written beside a path and moved into its place is read back from there
(`readText_replaced`), and whatever is not written over stays readable.
-/

namespace ShellSettings.FileTree

variable {t t' t'' : FileTree} {place q : Place} {name : String} {p : FilePath} {entry : Entry}
  {content : Content} {error : IoError} {text : String}

-- ---------------------------------------------------------------------------
-- Entries
-- ---------------------------------------------------------------------------

theorem lookup_remove (t : FileTree) (place q : Place) :
    (t.remove place).entries.lookup q = if q = place then none else t.entries.lookup q := by
  obtain ⟨base, entries⟩ := t
  simp only [remove]
  induction entries with
  | nil => simp
  | cons e entries ih =>
    obtain ⟨place', entry⟩ := e
    by_cases hplace : place' = place
    · subst hplace
      by_cases hq : q = place'
      · simpa [hq] using ih
      · simpa [hq, List.lookup_cons, beq_false_of_ne hq] using ih
    · rw [List.filter_cons_of_pos (by simpa using hplace), List.lookup_cons, List.lookup_cons, ih]
      by_cases hq : q = place'
      · simp [hq, hplace]
      · simp [beq_false_of_ne hq]

theorem entry?_remove (hplace : place ≠ []) :
    entry? (t.remove place) q = if q = place then none else t.entry? q := by
  unfold entry?
  rw [lookup_remove]
  by_cases hq : q = []
  · simp [hq, hplace.symm]
  · simp [hq]

theorem entry?_put (hplace : place ≠ []) :
    entry? (t.put place entry) q = if q = place then some entry else t.entry? q := by
  unfold entry? put
  rw [List.lookup_cons, lookup_remove]
  by_cases hq : q = []
  · simp [hq, hplace.symm]
  · by_cases hp : q = place
    · simp [hp, hplace]
    · simp [hq, hp, beq_false_of_ne hp]

theorem ne_nil_of_not_directory {t : FileTree} {place : Place}
    (h : t.entry? place ≠ some .directory) : place ≠ [] := by
  rintro rfl
  exact h rfl

-- ---------------------------------------------------------------------------
-- Ways through the tree
-- ---------------------------------------------------------------------------

structure KeepsDirectories (t t' : FileTree) : Prop where
  base : t'.base = t.base
  directories : ∀ place, t.entry? place = some .directory → t'.entry? place = some .directory

structure Grows (t t' : FileTree) : Prop where
  base : t'.base = t.base
  entries : ∀ place entry, t.entry? place = some entry → t'.entry? place = some entry

theorem Grows.refl (t : FileTree) : t.Grows t := ⟨rfl, fun _ _ => id⟩

theorem Grows.trans (h : t.Grows t') (h' : t'.Grows t'') : t.Grows t'' :=
  ⟨h'.base.trans h.base, fun place entry he => h'.entries place entry (h.entries place entry he)⟩

theorem Grows.keepsDirectories (h : t.Grows t') : t.KeepsDirectories t' :=
  ⟨h.base, fun place => h.entries place .directory⟩

theorem KeepsDirectories.trans (h : t.KeepsDirectories t') (h' : t'.KeepsDirectories t'') :
    t.KeepsDirectories t'' :=
  ⟨h'.base.trans h.base, fun place hd => h'.directories place (h.directories place hd)⟩

theorem grows_put (entry : Entry) (h : t.entry? place = none) : t.Grows (t.put place entry) := by
  have hplace : place ≠ [] := ne_nil_of_not_directory (by rw [h]; nofun)
  refine ⟨rfl, fun q e he => ?_⟩
  rw [entry?_put hplace, if_neg (fun hq => by simp [← hq, he] at h), he]

theorem keepsDirectories_put (entry : Entry) (h : t.entry? place ≠ some .directory) :
    t.KeepsDirectories (t.put place entry) := by
  refine ⟨rfl, fun q hq => ?_⟩
  rw [entry?_put (ne_nil_of_not_directory h), if_neg (fun he : q = place => h (he ▸ hq)), hq]

theorem keepsDirectories_remove (h : t.entry? place ≠ some .directory) :
    t.KeepsDirectories (t.remove place) := by
  refine ⟨rfl, fun q hq => ?_⟩
  rw [entry?_remove (ne_nil_of_not_directory h), if_neg (fun he : q = place => h (he ▸ hq)), hq]

theorem entry?_of_step (h : t.step place name = .ok q) : t.entry? place = some .directory := by
  unfold step at h
  split at h
  · cases h
  · cases h
  · assumption

theorem KeepsDirectories.step (h : t.KeepsDirectories t') (hs : t.step place name = .ok q) :
    t'.step place name = .ok q := by
  have hplace := entry?_of_step hs
  unfold FileTree.step at hs ⊢
  rw [hplace] at hs
  rw [h.directories place hplace]
  exact hs

theorem entry?_of_directoryAt (h : t.directoryAt place = .ok q) :
    q = place ∧ t.entry? place = some .directory := by
  unfold directoryAt at h
  split at h
  · cases h
  · cases h
  · exact ⟨(Except.ok.inj h).symm, by assumption⟩

theorem directoryAt_eq_ok (h : t.entry? place = some .directory) :
    t.directoryAt place = .ok place := by
  simp only [directoryAt, h]

theorem KeepsDirectories.walk (h : t.KeepsDirectories t') {way : List String}
    (hw : way.foldlM t.step place = .ok q) : way.foldlM t'.step place = .ok q := by
  induction way generalizing place with
  | nil => exact hw
  | cons name way ih =>
    obtain ⟨next, hnext, hw⟩ := bind_eq_ok hw
    exact (congrArg (· >>= fun place => way.foldlM t'.step place) (h.step hnext)).trans (ih hw)

theorem approach_eq_ok {last : Option String} : t.approach p = .ok (place, last) ↔
    textFault? p = none ∧ last = p.lastName? ∧
      (if p.lastName?.isSome then p.names.dropLast else p.names).foldlM t.step
        (if p.isAbsolute then [] else t.base) = .ok place ∧
      t.entry? place = some .directory := by
  unfold approach
  constructor
  · intro h
    split at h
    · cases h
    · rename_i hfault
      obtain ⟨way, hway, h⟩ := bind_eq_ok h
      obtain ⟨directory, hdirectory, hplace⟩ := bind_eq_ok h
      obtain ⟨rfl, hentry⟩ := entry?_of_directoryAt hdirectory
      cases hplace
      exact ⟨hfault, rfl, hway, hentry⟩
  · rintro ⟨hfault, rfl, hway, hentry⟩
    rw [hfault]
    simp only [hway, ok_bind, directoryAt_eq_ok hentry]
    rfl

theorem KeepsDirectories.approach {last : Option String} (h : t.KeepsDirectories t')
    (ha : t.approach p = .ok (place, last)) : t'.approach p = .ok (place, last) := by
  obtain ⟨hfault, hlast, hway, hentry⟩ := approach_eq_ok.mp ha
  exact approach_eq_ok.mpr ⟨hfault, hlast, h.base ▸ h.walk hway, h.directories place hentry⟩

theorem locate_eq_ok : t.locate p = .ok q ↔
    t.approach p = .ok (q, none) ∨
      ∃ place name, t.approach p = .ok (place, some name) ∧ t.step place name = .ok q := by
  unfold locate
  cases ha : t.approach p with
  | error e => simp [bind, Except.bind]
  | ok r =>
    obtain ⟨place, _ | name⟩ := r
    · simp [ok_bind, pure_eq_ok]
    · simp only [ok_bind, Except.ok.injEq, Prod.mk.injEq, reduceCtorEq, and_false, false_or,
        Option.some.injEq]
      constructor
      · exact fun hs => ⟨place, name, ⟨rfl, rfl⟩, hs⟩
      · rintro ⟨_, _, ⟨rfl, rfl⟩, hs⟩
        exact hs

theorem KeepsDirectories.locate (h : t.KeepsDirectories t') (hl : t.locate p = .ok q) :
    t'.locate p = .ok q := by
  rcases locate_eq_ok.mp hl with ha | ⟨place, name, ha, hs⟩
  · exact locate_eq_ok.mpr (.inl (h.approach ha))
  · exact locate_eq_ok.mpr (.inr ⟨place, name, h.approach ha, h.step hs⟩)

-- ---------------------------------------------------------------------------
-- Reading
-- ---------------------------------------------------------------------------

theorem find_eq_file : t.find p = .ok (.file content) ↔
    p.endsInSlash = false ∧ ∃ q, t.locate p = .ok q ∧ t.entry? q = some (.file content) := by
  unfold find
  cases hl : t.locate p with
  | error e => simp [bind, Except.bind]
  | ok q =>
    simp only [ok_bind]
    cases he : t.entry? q with
    | none => simp [he]
    | some entry => cases entry <;> cases hs : p.endsInSlash <;> simp [he]

theorem find_eq_directory : t.find p = .ok .directory ↔
    ∃ q, t.locate p = .ok q ∧ t.entry? q = some .directory := by
  unfold find
  cases hl : t.locate p with
  | error e => simp [bind, Except.bind]
  | ok q =>
    simp only [ok_bind]
    cases he : t.entry? q with
    | none => simp [he]
    | some entry => cases entry <;> cases hs : p.endsInSlash <;> simp [he]

theorem readText_eq_ok : t.readText p = .ok text ↔ t.find p = .ok (.file (.text text)) := by
  unfold readText
  cases hf : t.find p with
  | error e => simp [bind, Except.bind]
  | ok entry =>
    cases entry with
    | directory => simp [ok_bind]
    | file content => cases content <;> simp [ok_bind]

theorem has_eq_true : t.has p = true ↔ ∃ entry, t.find p = .ok entry := by
  unfold has
  cases t.find p <;> simp [Except.toOption]

theorem isDirectory_eq_true : t.isDirectory p = true ↔ t.find p = .ok .directory := by
  unfold isDirectory
  split
  · simp [*]
  · simpa using by assumption

theorem KeepsDirectories.find (h : t.KeepsDirectories t')
    (hplace : ∀ q, t.locate p = .ok q → t.entry? q = some entry → t'.entry? q = some entry)
    (hf : t.find p = .ok entry) : t'.find p = .ok entry := by
  cases entry with
  | directory =>
    obtain ⟨q, hl, he⟩ := find_eq_directory.mp hf
    exact find_eq_directory.mpr ⟨q, h.locate hl, hplace q hl he⟩
  | file content =>
    obtain ⟨hslash, q, hl, he⟩ := find_eq_file.mp hf
    exact find_eq_file.mpr ⟨hslash, q, h.locate hl, hplace q hl he⟩

theorem Grows.find (h : t.Grows t') (hf : t.find p = .ok entry) : t'.find p = .ok entry :=
  h.keepsDirectories.find (fun q _ => h.entries q entry) hf

theorem KeepsDirectories.isDirectory (h : t.KeepsDirectories t') (hp : t.isDirectory p = true) :
    t'.isDirectory p = true :=
  isDirectory_eq_true.mpr (h.find (fun q _ => h.directories q) (isDirectory_eq_true.mp hp))

-- ---------------------------------------------------------------------------
-- Making directories
-- ---------------------------------------------------------------------------

theorem ensureDirectory_cases (p : FilePath) (t : FileTree) :
    (∃ t', ensureDirectory p t = (.ok (), t') ∧ t'.isDirectory p = true ∧
      (t' = t ∨ ∃ q, t.locate p = .ok q ∧ t.entry? q = none ∧ t' = t.put q .directory)) ∨
    ∃ error, ensureDirectory p t = (.error error, t) ∧ t.isDirectory p = false := by
  unfold ensureDirectory makeDirectory
  cases hl : t.locate p with
  | error e =>
    right
    have hnone : t.isDirectory p = false := by simp [isDirectory, find, hl, bind, Except.bind]
    exact ⟨e, by simp [hnone], hnone⟩
  | ok q =>
    cases he : t.entry? q with
    | none =>
      left
      have hq : q ≠ [] := ne_nil_of_not_directory (by rw [he]; nofun)
      have hlocate := (grows_put .directory he).keepsDirectories.locate hl
      have hmade : (t.put q .directory).isDirectory p = true := isDirectory_eq_true.mpr
        (find_eq_directory.mpr ⟨q, hlocate, by rw [entry?_put hq, if_pos rfl]⟩)
      exact ⟨t.put q .directory, by simp only [he], hmade, .inr ⟨q, rfl, he, rfl⟩⟩
    | some entry =>
      cases hd : t.isDirectory p with
      | true => exact .inl ⟨t, by simp [he, hd], hd, .inl rfl⟩
      | false => exact .inr ⟨.exists, by simp [he, hd], rfl⟩

theorem grows_ensureDirectory (p : FilePath) (t : FileTree) :
    t.Grows (ensureDirectory p t).2 := by
  rcases ensureDirectory_cases p t with ⟨t', h, -, rfl | ⟨q, -, he, rfl⟩⟩ | ⟨e, h, -⟩
  · exact h ▸ .refl t'
  · exact h ▸ grows_put _ he
  · exact h ▸ .refl t

theorem grows_ensurePieces (absolute : Bool) (pieces : List String) (t : FileTree) :
    t.Grows (ensurePieces absolute pieces t).2 := by
  induction pieces generalizing t with
  | nil => exact .refl t
  | cons piece above ih =>
    unfold ensurePieces
    split
    · exact ih t
    · dsimp only
      split
      · rename_i t' h
        have hfirst := grows_ensureDirectory (.ofPieces absolute (piece :: above).reverse) t
        rw [h] at hfirst
        have habove := hfirst.trans (ih t')
        split
        · rename_i t'' h'
          rw [h'] at habove
          exact habove.trans (grows_ensureDirectory _ t'')
        · exact habove
      · exact grows_ensureDirectory _ t

-- ---------------------------------------------------------------------------
-- Writing and moving
-- ---------------------------------------------------------------------------

theorem write_eq_ok (h : write p content t = (.ok (), t')) :
    p.endsInSlash = false ∧ ∃ place name q, t.approach p = .ok (place, some name) ∧
      t.step place name = .ok q ∧ t.entry? q ≠ some .directory ∧ t' = t.put q (.file content) := by
  unfold write at h
  split at h
  · cases h
  · cases h
  · rename_i place name ha
    split at h
    · cases h
    · rename_i hslash
      split at h
      · cases h
      · rename_i q hs
        split at h
        · cases h
        · rename_i hentry
          cases h
          exact ⟨by simpa using hslash, place, name, q, ha, hs, hentry, rfl⟩

theorem write_eq_error (h : write p content t = (.error error, t')) : t' = t := by
  unfold write at h
  repeat' split at h
  all_goals
    cases h
    try rfl

theorem rename_eq_ok {source target : FilePath} (h : rename source target t = (.ok (), t')) :
    target.endsInSlash = false ∧
      ∃ old new content, t.locate source = .ok old ∧ t.entry? old = some (.file content) ∧
        t.locate target = .ok new ∧ t.entry? new ≠ some .directory ∧
        t' = (t.remove old).put new (.file content) := by
  unfold rename at h
  split at h
  · cases h
  · cases h
  · cases h
  · cases h
  · rename_i oldDirectory oldName newDirectory newName hsource htarget
    split at h
    · cases h
    · rename_i old hold
      split at h
      · cases h
      · cases h
      · cases h
      · rename_i content new hentry hnew
        split at h
        · cases h
        · rename_i hslash
          split at h
          · cases h
          · rename_i hplace
            cases h
            exact ⟨by simp at hslash; exact hslash.2, old, new, content,
              locate_eq_ok.mpr (.inr ⟨_, _, hsource, hold⟩), hentry,
              locate_eq_ok.mpr (.inr ⟨_, _, htarget, hnew⟩), hplace, rfl⟩

theorem rename_eq_error {source target : FilePath}
    (h : rename source target t = (.error error, t')) : t' = t := by
  unfold rename at h
  repeat' split at h
  all_goals
    cases h
    try rfl

/-- What is written to one path and moved to another is read there. -/
theorem readText_replaced {source target : FilePath}
    (hw : write source (.text text) t = (.ok (), t'))
    (hr : rename source target t' = (.ok (), t'')) : t''.readText target = .ok text := by
  obtain ⟨-, place, name, q, ha, hs, hq, rfl⟩ := write_eq_ok hw
  have hnil : q ≠ [] := ne_nil_of_not_directory hq
  obtain ⟨hslash, old, new, content, hold, hcontent, hnew, hplace, rfl⟩ := rename_eq_ok hr
  have hsource := (keepsDirectories_put (.file (.text text)) hq).locate
    (locate_eq_ok.mpr (.inr ⟨place, name, ha, hs⟩))
  obtain rfl : q = old := Except.ok.inj (hsource.symm.trans hold)
  obtain rfl : Content.text text = content := by simpa [entry?_put hnil] using hcontent
  have hremoved : entry? ((t.put q (.file (.text text))).remove q) new ≠ some .directory := by
    rw [entry?_remove hnil]
    split
    · nofun
    · exact hplace
  have hkeeps := (keepsDirectories_remove (hcontent ▸ by simp)).trans
    (keepsDirectories_put (.file (.text text)) hremoved)
  exact readText_eq_ok.mpr (find_eq_file.mpr ⟨hslash, new, hkeeps.locate hnew, by
    rw [entry?_put (ne_nil_of_not_directory hremoved), if_pos rfl]⟩)

end ShellSettings.FileTree
