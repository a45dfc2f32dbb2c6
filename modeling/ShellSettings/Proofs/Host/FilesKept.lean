import ShellSettings.Proofs.Host.DiskLaws

/-!
# Files that stay as they are

Making directories touches no file, and a save touches none but the file it is
for and the one beside it (`DiskHost.keepsFiles_writeDocument`). A load that
fails has tried to write a default document at most, and has not come to the file
it is for (`DiskHost.load_error`).
-/

namespace ShellSettings

namespace FileTree

variable {t t' t'' : FileTree} {place : Place} {content : Content} {ps ps' : List FilePath}

def file? (t : FileTree) (place : Place) : Option Content :=
  match t.entry? place with
  | some (.file content) => some content
  | _ => none

/-- Every file stays as it is and none comes, except where one of these paths leads in the end. -/
def KeepsFiles (t t' : FileTree) (ps : List FilePath) : Prop :=
  ∀ place, (∀ p ∈ ps, t'.locate p ≠ .ok place) → t'.file? place = t.file? place

theorem keepsFiles_of_eq (h : t'.file? = t.file?) : t.KeepsFiles t' ps :=
  fun place _ => congrFun h place

theorem KeepsFiles.mono (h : t.KeepsFiles t' ps) (hps : ps ⊆ ps') : t.KeepsFiles t' ps' :=
  fun place hplace => h place fun p hp => hplace p (hps hp)

/-- No directory is lost on the way, so a path that leads to a place goes on leading there. -/
theorem KeepsFiles.trans (h : t.KeepsFiles t' ps) (h' : t'.KeepsFiles t'' ps)
    (hkeeps : t'.KeepsDirectories t'') : t.KeepsFiles t'' ps := by
  intro place hplace
  refine (h' place hplace).trans (h place fun p hp hlocate => ?_)
  exact hplace p hp (hkeeps.locate hlocate)

theorem file?_ensureDirectory (p : FilePath) (t : FileTree) :
    (ensureDirectory p t).2.file? = t.file? := by
  rcases ensureDirectory_cases p t with ⟨t', h, -, rfl | ⟨q, -, he, rfl⟩⟩ | ⟨e, h, -⟩
  · rw [h]
  · rw [h]
    funext place
    have hq : q ≠ [] := ne_nil_of_not_directory (by rw [he]; nofun)
    by_cases hplace : place = q
    · simp [file?, entry?_put hq, hplace, he]
    · simp [file?, entry?_put hq, hplace]
  · rw [h]

theorem file?_ensurePieces (absolute : Bool) (pieces : List String) (t : FileTree) :
    (ensurePieces absolute pieces t).2.file? = t.file? := by
  induction pieces generalizing t with
  | nil => rfl
  | cons piece above ih =>
    unfold ensurePieces
    split
    · exact ih t
    · dsimp only
      split
      · rename_i t' h
        have hfirst := file?_ensureDirectory (.ofPieces absolute (piece :: above).reverse) t
        rw [h] at hfirst
        have habove := (ih t').trans hfirst
        split
        · rename_i t'' h'
          rw [h'] at habove
          exact (file?_ensureDirectory _ t'').trans habove
        · exact habove
      · exact file?_ensureDirectory _ t

theorem keepsFiles_write {p : FilePath} (h : write p content t = (.ok (), t')) :
    t.KeepsFiles t' [p] ∧ t.KeepsDirectories t' := by
  obtain ⟨-, directory, name, q, ha, hs, hq, rfl⟩ := write_eq_ok h
  have hkeeps := keepsDirectories_put (.file content) hq
  have hlocate := hkeeps.locate (locate_eq_ok.mpr (.inr ⟨directory, name, ha, hs⟩))
  refine ⟨fun place hplace => ?_, hkeeps⟩
  have hne : place ≠ q := fun he => hplace p List.mem_cons_self (he ▸ hlocate)
  simp only [file?, entry?_put (ne_nil_of_not_directory hq), if_neg hne]

theorem keepsFiles_rename {source target : FilePath}
    (h : rename source target t = (.ok (), t')) :
    t.KeepsFiles t' [source, target] ∧ t.KeepsDirectories t' := by
  obtain ⟨-, old, new, content, hold, hcontent, hnew, hplace, rfl⟩ := rename_eq_ok h
  have hfile : t.entry? old ≠ some .directory := by rw [hcontent]; nofun
  have hremoved : entry? (t.remove old) new ≠ some .directory := by
    rw [entry?_remove (ne_nil_of_not_directory hfile)]
    split
    · nofun
    · exact hplace
  have hkeeps := (keepsDirectories_remove hfile).trans
    (keepsDirectories_put (.file content) hremoved)
  refine ⟨fun place hother => ?_, hkeeps⟩
  have hne : place ≠ new := fun he => hother target (by simp) (he ▸ hkeeps.locate hnew)
  have hne' : place ≠ old := fun he => hother source (by simp) (he ▸ hkeeps.locate hold)
  simp only [file?, entry?_put (ne_nil_of_not_directory hplace),
    entry?_remove (ne_nil_of_not_directory hfile), if_neg hne, if_neg hne']

end FileTree

namespace DiskHost

open FileTree

variable {h : DiskHost} {r : HostRequest} {p : FilePath} {d : Document} {t t' : FileTree}
  {path : Option String}

theorem file?_prepare (p : FilePath) (t : FileTree) : (prepare p t).2.file? = t.file? := by
  unfold prepare
  split
  · rfl
  · exact file?_ensurePieces _ _ t

theorem keepsFiles_of_error {error : IoError} (h : writeDocument p d t = (.error error, t')) :
    t.KeepsFiles t' [besidePath p] := by
  rcases writeDocument_eq_error h with rfl | ⟨-, hw⟩
  · exact keepsFiles_of_eq (file?_prepare p t)
  · obtain ⟨hfiles, hkeeps⟩ := keepsFiles_write hw
    exact KeepsFiles.trans (keepsFiles_of_eq (file?_prepare p t)) hfiles hkeeps

theorem keepsFiles_writeDocument (p : FilePath) (d : Document) (t : FileTree) :
    t.KeepsFiles (writeDocument p d t).2 [besidePath p, p] := by
  rcases hsaved : writeDocument p d t with ⟨error | _, t'⟩
  · exact (keepsFiles_of_error hsaved).mono (by simp)
  · rw [writeDocument_eq] at hsaved
    have hprepared := file?_prepare p t
    split at hsaved
    · cases hsaved
    · rename_i hp
      rw [hp] at hprepared
      split at hsaved
      · cases hsaved
      · rename_i hw
        obtain ⟨hfiles, hkeeps⟩ := keepsFiles_write hw
        obtain ⟨hmoved, hkeeps'⟩ := keepsFiles_rename hsaved
        have hwritten := KeepsFiles.trans (keepsFiles_of_eq hprepared) hfiles hkeeps
        exact (hwritten.mono (by simp)).trans hmoved hkeeps'

/-- A load that fails leaves its path with the host, and of the files changes the one beside at
most. -/
theorem load_error {e : TransportError} (herror : (h.load path).1 = .error e) :
    ∃ tree, (h.load path).2 = { h.switched path with tree } ∧
      h.tree.KeepsFiles tree [besidePath (h.switched path).path] := by
  rcases load_cases h path with ⟨d, -, hload⟩ | ⟨e', entry, -, -, hload⟩ | ⟨tree, -, hload⟩ |
    ⟨e', tree, hw, hload⟩
  · simp [hload] at herror
  · refine ⟨h.tree, ?_, fun _ _ => rfl⟩
    rw [hload, ← switched_tree h path]
  · simp [hload] at herror
  · rw [switched_tree] at hw
    exact ⟨tree, congrArg Prod.snd hload, keepsFiles_of_error hw⟩

theorem files_submit (h : DiskHost) (r : HostRequest) : (h.submit r).2.path = h.path ∧
    h.tree.KeepsFiles (h.submit r).2.tree [besidePath h.path, h.path] := by
  by_cases op : r.op = Protocol.persistOp
  · rw [submit_persist op]
    rcases persist_cases h r with ⟨d, tree, -, hw, heq⟩ | ⟨e, -, heq⟩ | ⟨d, e, tree, hw, heq⟩
    · have hfiles := keepsFiles_writeDocument h.path d h.tree
      rw [hw] at hfiles
      rw [heq]
      exact ⟨rfl, hfiles⟩
    · rw [heq]
      exact ⟨rfl, fun _ _ => rfl⟩
    · have hfiles := keepsFiles_writeDocument h.path d h.tree
      rw [hw] at hfiles
      rw [heq]
      exact ⟨rfl, hfiles⟩
  · rw [submit_other op]
    exact ⟨rfl, fun _ _ => rfl⟩

end DiskHost

end ShellSettings
