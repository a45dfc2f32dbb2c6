import ShellSettings.Proofs.Host.FilesKept
import ShellSettings.Proofs.Host.OwnWrites
import ShellSettings.Proofs.Sync.Reload

/-!
# Loads that fail

A load that fails leaves the store and the guard as they were. But the path that
was given to it has become the host's, so the next save that succeeds writes the
document there, over whatever could not be read, and not to the file that it was
loaded from (`Run.save_after_failed_load`). Only a load without a path, or with
the path that the host has already, leaves the session in order.
-/

namespace ShellSettings.Session

-- ---------------------------------------------------------------------------
-- Going on without a load
-- ---------------------------------------------------------------------------

section

variable {η : Type} [Transport η]

/-- The sessions that can be reached without loading anything. -/
inductive Onward (moves : η → η → Prop) (start : Session η) : Session η → Prop
  | start : Onward moves start start
  | edit {s c} (onward : Onward moves start s) (h : StoreCommand.IsEdit c) :
    Onward moves start (s.edit c)
  | host {s host} (onward : Onward moves start s) (h : moves s.host host) :
    Onward moves start { s with host }
  | beginSave {s} (now : Nat) (onward : Onward moves start s) :
    Onward moves start (s.beginSave now).2
  | take {s m host outcome client} (now : Nat) (onward : Onward moves start s)
    (h : Transport.receive s.host = (.ok (some m), host))
    (hm : s.client.handle m now = (outcome, client)) : Onward moves start ⟨client, host⟩
  | poll {s r host} (onward : Onward moves start s)
    (h : Transport.receive s.host = (r, host)) (hr : ∀ m, r ≠ .ok (some m)) :
    Onward moves start { s with host }

variable {moves : η → η → Prop} {start s t : Session η} {log : List (Event η)}

theorem Onward.run (onward : Onward moves s t) (run : Run moves start log s) :
    ∃ more, Run moves start (log ++ more) t := by
  induction onward with
  | start => exact ⟨[], by simpa using run⟩
  | edit _ h ih => exact ih.imp fun _ run => run.edit h
  | host _ h ih => exact ih.imp fun _ run => run.host h
  | beginSave now _ ih =>
    obtain ⟨more, run⟩ := ih
    exact ⟨more ++ _, by simpa using run.beginSave now⟩
  | take now _ h hm ih =>
    obtain ⟨more, run⟩ := ih
    exact ⟨more ++ _, by simpa using run.take now h hm⟩
  | poll _ h hr ih => exact ih.imp fun _ run => run.poll h hr

end

variable {s t : Session DiskHost} {log : List (Event DiskHost)} {l : Loaded} {e : SyncError}
  {again : Option String} {now : Nat}

-- ---------------------------------------------------------------------------
-- With a host on disk
-- ---------------------------------------------------------------------------

theorem load_error_cases (failed : (s.load again now).1 = .error e) :
    ∃ tree, (s.load again now).2 =
        ⟨{ s.client with counter := s.client.counter + 1 }, { s.host.switched again with tree }⟩ ∧
      s.host.tree.KeepsFiles tree [DiskHost.besidePath (s.host.switched again).path] := by
  rw [load_disk] at failed ⊢
  rcases hload : s.host.load again with ⟨e' | d, host⟩
  · obtain ⟨tree, hhost, hfiles⟩ := DiskHost.load_error (congrArg Prod.fst hload)
    rw [hload] at hhost
    exact ⟨tree, by rw [← hhost], hfiles⟩
  · simp [hload] at failed

theorem files_save (s : Session DiskHost) (now : Nat) :
    (s.save now).2.host.path = s.host.path ∧
      s.host.tree.KeepsFiles (s.save now).2.host.tree
        [DiskHost.besidePath s.host.path, s.host.path] := by
  have begun : (s.beginSave now).2.host.path = s.host.path ∧
      s.host.tree.KeepsFiles (s.beginSave now).2.host.tree
        [DiskHost.besidePath s.host.path, s.host.path] := by
    rcases beginSave_host s now with ⟨hhost, -⟩ | ⟨l, -, -, hhost⟩
    · rw [hhost]
      exact ⟨rfl, fun _ _ => rfl⟩
    · rw [hhost]
      exact DiskHost.files_submit s.host _
  unfold save
  split
  · rename_i hbegun
    rwa [hbegun] at begun
  · rename_i id s' hbegun
    obtain ⟨⟨hpath, htree⟩, -⟩ := s'.awaitResult_disk id now
    rw [hbegun] at begun
    rw [hpath, htree]
    exact begun

theorem Onward.path_eq (onward : Onward DiskHost.OthersWrite s t) :
    t.host.path = s.host.path := by
  induction onward with
  | start => rfl
  | edit _ _ ih => exact ih
  | host _ h ih =>
    obtain ⟨tree, rfl⟩ := h
    exact ih
  | @beginSave t now _ ih =>
    rcases beginSave_host t now with ⟨hhost, -⟩ | ⟨l, -, -, hhost⟩
    · exact hhost ▸ ih
    · exact (congrArg DiskHost.path hhost).trans ((DiskHost.files_submit t.host _).1.trans ih)
  | take now _ h _ ih => exact (DiskHost.receive_cases h).1.1.trans ih
  | poll _ h hr ih =>
    cases DiskHost.receive_nothing h hr
    exact ih

theorem switched_path_eq_iff (h : DiskHost) (again : Option String) :
    (h.switched again).path = h.path ↔ again = none ∨ again = some h.path.text := by
  cases again with
  | none => simp [DiskHost.switched]
  | some p =>
    simp only [DiskHost.switched, reduceCtorEq, Option.some.injEq, false_or]
    constructor
    · intro hpath
      exact congrArg FilePath.text hpath
    · rintro rfl
      rfl

/-- A load that fails leaves the client as it was, but the path that was given to it is the host's
from then on. Until the next load every save that succeeds goes to that path, and no file is changed
but that and the one beside it. So the document goes back to the file it was loaded from just if no
other path was given. -/
theorem Run.save_after_failed_load {policy : RestartPolicy} {ids : IdSource} {config : SyncConfig}
    {path : FilePath} {tree : FileTree}
    (run : Run DiskHost.OthersWrite ⟨{ store := { policy, ids }, config }, { path, tree }⟩ log s)
    (failed : (s.load again now).1 = .error e) :
    let switched := s.host.switched again
    (∃ tree, (s.load again now).2 =
        ⟨{ s.client with counter := s.client.counter + 1 }, { switched with tree }⟩ ∧
      s.host.tree.KeepsFiles tree [DiskHost.besidePath switched.path]) ∧
    (switched.path = s.host.path ↔ again = none ∨ again = some s.host.path.text) ∧
    ∀ t l later, Onward DiskHost.OthersWrite (s.load again now).2 t →
      t.client.store.loaded = some l → (t.save later).1 = .ok () →
      (t.save later).2.host.path = switched.path ∧
      (t.save later).2.host.tree.readText switched.path = .ok l.current.toJson.pretty ∧
      t.host.tree.KeepsFiles (t.save later).2.host.tree
        [DiskHost.besidePath switched.path, switched.path] := by
  intro switched
  -- The path stays with the host until the next load, and a save goes wherever it leads.
  obtain ⟨tree, hload, hfiles⟩ := load_error_cases failed
  refine ⟨⟨tree, hload, hfiles⟩, switched_path_eq_iff s.host again, ?_⟩
  intro t l later onward hl hsave
  obtain ⟨more, run⟩ := onward.run (run.load again now)
  have hpath : t.host.path = switched.path := by
    rw [onward.path_eq, hload]
  obtain ⟨hsaved, hkept⟩ := files_save t later
  have hwritten := (run.orderly orderly_start).written hl hsave
  rw [hsaved, hpath] at hwritten
  rw [hpath] at hsaved hkept
  exact ⟨hsaved, hwritten, hkept⟩

-- ---------------------------------------------------------------------------
-- A file that cannot be read
-- ---------------------------------------------------------------------------

/-- A session in a directory that has another file. -/
def crowded : Session DiskHost :=
  { unsettled with host := {
      path := ⟨"settings.json"⟩
      tree := ⟨[], [(["other.json"], .file (.text "\x7b not json"))]⟩ } }

/-- The same once its own document is loaded. The other file is tried then, and the language
changed. -/
def crowdedLoaded : Session DiskHost := (crowded.load none 0).2

def misled : Session DiskHost := (crowdedLoaded.load (some "other.json") 0).2

def translated : Session DiskHost := misled.edit (.patchAt .root (.obj [("language", .str "de")]))

theorem run_crowdedLoaded : Run DiskHost.OthersWrite crowded [] crowdedLoaded :=
  .load none 0 .start

theorem load_misled :
    ∃ reason, (crowdedLoaded.load (some "other.json") 0).1 = .error (.load reason) :=
  load_unread (e := .serialization _) rfl 0

theorem loaded_translated : translated.client.store.loaded =
    some { current := DiskHost.german, snapshot := {}, revision := 1, repaired := false } := rfl

theorem save_translated : (translated.save 0).1 = .ok () ∧
    (translated.save 0).2.host.tree =
      ⟨[], [(["other.json"], .file (.text DiskHost.german.toJson.pretty)),
        (["settings.json"], .file (.text ({} : Document).toJson.pretty))]⟩ := by
  obtain ⟨htree, hsave⟩ := save_idle (s := translated) DiskHost.german_wellFormed nofun rfl rfl
    loaded_translated 0
  rw [htree, hsave]
  exact ⟨rfl, rfl⟩

theorem save_after_failed_load_of_other_file :
    Run DiskHost.OthersWrite crowded [] crowdedLoaded ∧
      (∃ reason, (crowdedLoaded.load (some "other.json") 0).1 = .error (.load reason)) ∧
      Onward DiskHost.OthersWrite misled translated ∧
      (translated.save 0).1 = .ok () ∧
      (translated.save 0).2.host.tree.readText ⟨"other.json"⟩ =
        .ok DiskHost.german.toJson.pretty := by
  obtain ⟨reason, failed⟩ := load_misled
  have onward : Onward DiskHost.OthersWrite misled translated := Onward.start.edit trivial
  obtain ⟨-, -, saves⟩ := run_crowdedLoaded.save_after_failed_load failed
  obtain ⟨-, written, -⟩ := saves translated _ 0 onward loaded_translated save_translated.1
  exact ⟨run_crowdedLoaded, ⟨reason, failed⟩, onward, save_translated.1, written⟩

/-- The document was loaded from one file, and the load of another failed. The next save writes over
that other file, and the document's own stays as it was. -/
theorem failed_load_redirects_save :
    (crowded.load none 0).1 = .ok [] ∧ crowdedLoaded.host.path = ⟨"settings.json"⟩ ∧
      crowdedLoaded.client.store.get = .ok {} ∧
      (∃ reason, (crowdedLoaded.load (some "other.json") 0).1 = .error (.load reason)) ∧
      misled.host.path = ⟨"other.json"⟩ ∧
      translated.client.store.get = .ok DiskHost.german ∧ (translated.save 0).1 = .ok () ∧
      (translated.save 0).2.host.tree.file? ["settings.json"] =
        some (.text ({} : Document).toJson.pretty) ∧
      translated.host.tree.file? ["other.json"] = some (.text "\x7b not json") ∧
      (translated.save 0).2.host.tree.file? ["other.json"] =
        some (.text DiskHost.german.toJson.pretty) := by
  obtain ⟨hsave, htree⟩ := save_translated
  rw [htree]
  exact ⟨rfl, rfl, rfl, load_misled, rfl, rfl, hsave, rfl, rfl, rfl⟩

end ShellSettings.Session
