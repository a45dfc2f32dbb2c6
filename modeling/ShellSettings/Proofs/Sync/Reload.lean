import ShellSettings.Proofs.Sync.DiskRun

/-!
# What was saved is loaded again

After a save that succeeded, any new session that knows no catalogs and is given
the same path finds exactly the document that was saved, as long as its containers
are nested no deeper than a reader goes. The store takes deeper ones by patches,
and the host writes them, but no session will ever load them
(`Run.saved_reloads`).
-/

namespace ShellSettings.Session

variable {s fresh : Session DiskHost} {log : List (Event DiskHost)} {l : Loaded} {d : Document}
  {again : Option String} {now : Nat}

-- ---------------------------------------------------------------------------
-- Loading
-- ---------------------------------------------------------------------------

theorem load_disk (s : Session DiskHost) (again : Option String) (now : Nat) :
    s.load again now = match s.host.load again with
      | (.error e, host) =>
        (.error (.load (HostError.storageFailure e.message).display),
          { client := { s.client with counter := s.client.counter + 1 }, host })
      | (.ok d, host) =>
        (.ok (s.client.store.install d).2,
          { client := { s.client with
              counter := s.client.counter + 1
              store := (s.client.store.install d).1
              status := { s.client.status with lastLoadedAt := some now } }
            host }) := by
  let r : HostRequest := .load (requestId (s.client.counter + 1)) again
  have hpath : r.path? = again := HostRequest.path?_load again
  have hanswer : Transport.request s.host r = (s.host.request r) := rfl
  have hresponse := DiskHost.request_eq (h := s.host) (r := r) rfl
  have hhost := DiskHost.request_load (h := s.host) (r := r) rfl
  rw [hpath] at hresponse hhost
  unfold load
  dsimp only [Client.nextRequest]
  rw [hanswer, ← Prod.mk.eta (p := s.host.request r), hresponse, hhost]
  rcases hload : s.host.load again with ⟨e | d, host⟩
  · rfl
  · have hd : d.WellFormed := DiskHost.wellFormed_of_load (congrArg Prod.fst hload)
    have hloaded : loadedDocument (.success Protocol.high r.id
        (.obj [("document", d.toValue)])) = .ok d :=
      loadedDocument_success.mpr (Document.ofJson?_toValue hd)
    simp only [hloaded]

theorem load_read (h : (s.host.load again).1 = .ok d) (now : Nat) :
    (s.load again now).1 = .ok (s.client.store.install d).2 ∧
      (s.load again now).2.client.store = (s.client.store.install d).1 := by
  rw [load_disk]
  rcases hload : s.host.load again with ⟨e | d', host⟩
  · simp [hload] at h
  · rw [hload] at h
    cases h
    exact ⟨rfl, rfl⟩

theorem load_unread {e : TransportError} (h : (s.host.load again).1 = .error e) (now : Nat) :
    ∃ reason, (s.load again now).1 = .error (.load reason) := by
  rw [load_disk]
  rcases hload : s.host.load again with ⟨e' | d, host⟩
  · exact ⟨_, rfl⟩
  · simp [hload] at h

-- ---------------------------------------------------------------------------
-- Loading what was saved
-- ---------------------------------------------------------------------------

/-- A session that is given the files and the path which a save has left. -/
structure Resumes (fresh saved : Session DiskHost) (again : Option String) : Prop where
  tree : fresh.host.tree = saved.host.tree
  path : (fresh.host.switched again).path = saved.host.path

theorem Resumes.load_eq {text : String} (h : fresh.Resumes s again)
    (htext : s.host.tree.readText s.host.path = .ok text) :
    (fresh.host.load again).1 = match Document.ofText? text with
      | .error e => .error (.serialization e)
      | .ok d => .ok d := by
  rw [← h.path, ← h.tree, ← DiskHost.switched_tree _ again] at htext
  rw [DiskHost.load_of_find (FileTree.readText_eq_ok.mp htext)]
  simp only [DiskHost.readDocument, htext]
  cases Document.ofText? text <;> rfl

theorem Resumes.loads (h : fresh.Resumes s again) (hcatalog : fresh.client.store.catalog = .empty)
    (htext : s.host.tree.readText s.host.path = .ok d.toJson.pretty) (hd : d.Lasting)
    (hlegible : d.Legible) (now : Nat) :
    (fresh.load again now).1 = .ok [] ∧
      ∃ revision, (fresh.load again now).2.client.store.loaded =
        some { current := d, snapshot := d, revision, repaired := false } := by
  have hload := h.load_eq htext
  rw [Document.ofText?_pretty hd.wellFormed hlegible] at hload
  obtain ⟨hdropped, hstore⟩ := load_read hload now
  obtain ⟨hloaded, hnone⟩ := Store.install_of_lasting hcatalog hd
  rw [hdropped, hstore, hnone]
  exact ⟨rfl, hloaded⟩

theorem Resumes.fails (h : fresh.Resumes s again)
    (htext : s.host.tree.readText s.host.path = .ok d.toJson.pretty) (exact : d.toJson.Exact)
    (deep : Cursor.depthLimit < d.toJson.depth) (now : Nat) :
    ∃ reason, (fresh.load again now).1 = .error (.load reason) := by
  obtain ⟨e, he⟩ := Document.ofText?_pretty_deep exact deep
  have hload := h.load_eq htext
  rw [he] at hload
  exact load_unread hload now

theorem orderly_start {policy : RestartPolicy} {ids : IdSource} {config : SyncConfig}
    {path : FilePath} {tree : FileTree} :
    Orderly ⟨{ store := { policy, ids }, config }, { path, tree }⟩ where
  lasting := ⟨fun _ h => (nomatch h), fun _ h => (nomatch h)⟩
  changes _ h := nomatch h
  results _ _ _ h := nomatch h

/-- Whatever was done to a store and its files, a document whose save succeeds is loaded again from
the same path, and nothing is dropped from it, if its containers are nested no deeper than a reader
goes. If they are nested deeper, no load of it succeeds. -/
theorem Run.saved_reloads {policy : RestartPolicy} {ids : IdSource} {config : SyncConfig}
    {path : FilePath} {tree : FileTree}
    (run : Run DiskHost.OthersWrite ⟨{ store := { policy, ids }, config }, { path, tree }⟩ log s)
    (hl : s.client.store.loaded = some l) (exact : l.current.toJson.Exact)
    (hsave : (s.save now).1 = .ok ()) (resumes : fresh.Resumes (s.save now).2 again)
    (uncataloged : fresh.client.store.catalog = .empty) (later : Nat) :
    (l.current.toJson.depth ≤ Cursor.depthLimit → (fresh.load again later).1 = .ok [] ∧
      ∃ revision, (fresh.load again later).2.client.store.loaded =
        some { current := l.current, snapshot := l.current, revision, repaired := false }) ∧
    (Cursor.depthLimit < l.current.toJson.depth →
      ∃ reason, (fresh.load again later).1 = .error (.load reason)) := by
  have orderly := run.orderly orderly_start
  have htext := orderly.written hl hsave
  refine ⟨fun hshallow => ?_, fun hdeep => resumes.fails htext exact hdeep later⟩
  exact resumes.loads uncataloged htext (orderly.lasting.store l hl).1 ⟨exact, hshallow⟩ later

-- ---------------------------------------------------------------------------
-- Patches that nest
-- ---------------------------------------------------------------------------

def nested : Nat → Json
  | 0 => .obj []
  | n + 1 => .obj [("a", nested n)]

def nesting (n : Nat) : Document := { extra := Map.ofList [("a", nested n)] }

theorem exact_nested : ∀ n, (nested n).Exact
  | 0 => by repeat' constructor
  | n + 1 => ⟨trivial, exact_nested n, trivial⟩

theorem exact_nesting (n : Nat) : (nesting n).toJson.Exact := by
  refine ⟨trivial, ?_⟩
  repeat' first | exact exact_nested n | constructor

/-- A session in an empty directory, what it has loaded there, and the next session. -/
def unsettled : Session DiskHost where
  client := { store := { policy := .builtIn, ids := ⟨fun _ => "", 0⟩ }, config := ⟨none, 0⟩ }
  host := { path := ⟨"settings.json"⟩, tree := ⟨[], []⟩ }

def settled : Session DiskHost := (unsettled.load none 0).2

def restarted (s : Session DiskHost) : Session DiskHost :=
  { unsettled with host := { path := s.host.path, tree := s.host.tree } }

theorem resumes_restarted (s : Session DiskHost) : (restarted s).Resumes s none := ⟨rfl, rfl⟩

def patchedOnce : Session DiskHost := settled.edit (.patchAt .root (nested 100))

def patchedTwice : Session DiskHost :=
  patchedOnce.edit (.patchAt ⟨List.replicate 100 "a"⟩ (nested 27))

theorem loaded_settled : settled.client.store =
    { policy := .builtIn, ids := ⟨fun _ => "", 0⟩, loaded := some ⟨{}, {}, 0, false⟩ } := rfl

-- Evaluating the patches goes as deep as they nest.
set_option maxRecDepth 4000 in
theorem loaded_patchedOnce : patchedOnce.client.store =
    { policy := .builtIn, ids := ⟨fun _ => "", 0⟩, loaded := some ⟨nesting 99, {}, 1, false⟩ } := by
  unfold patchedOnce edit
  rw [loaded_settled]
  rfl

set_option maxRecDepth 4000 in
theorem loaded_patchedTwice : patchedTwice.client.store =
    { policy := .builtIn, ids := ⟨fun _ => "", 0⟩,
      loaded := some ⟨nesting 126, {}, 2, false⟩ } := by
  unfold patchedTwice edit
  rw [loaded_patchedOnce]
  rfl

theorem run_patchedOnce : Run DiskHost.OthersWrite unsettled [] patchedOnce :=
  (Run.load none 0 .start).edit trivial

theorem run_patchedTwice : Run DiskHost.OthersWrite unsettled [] patchedTwice :=
  run_patchedOnce.edit trivial

theorem save_patchedOnce : (patchedOnce.save 0).1 = .ok () :=
  save_ok (run_patchedOnce.orderly orderly_start) rfl rfl rfl
    (congrArg Store.loaded loaded_patchedOnce) rfl 0

theorem save_patchedTwice : (patchedTwice.save 0).1 = .ok () :=
  save_ok (run_patchedTwice.orderly orderly_start) rfl rfl rfl
    (congrArg Store.loaded loaded_patchedTwice) rfl 0

theorem saved_reloads_patched_once :
    Run DiskHost.OthersWrite unsettled [] patchedOnce ∧ (patchedOnce.save 0).1 = .ok () ∧
      ((restarted (patchedOnce.save 0).2).load none 0).1 = .ok [] ∧
      ∃ revision, ((restarted (patchedOnce.save 0).2).load none 0).2.client.store.loaded =
        some { current := nesting 99, snapshot := nesting 99, revision, repaired := false } := by
  have shallow : (nesting 99).toJson.depth ≤ Cursor.depthLimit := by decide +kernel
  obtain ⟨reloads, -⟩ := run_patchedOnce.saved_reloads
    (congrArg Store.loaded loaded_patchedOnce) (exact_nesting 99) save_patchedOnce
    (resumes_restarted _) rfl 0
  exact ⟨run_patchedOnce, save_patchedOnce, reloads shallow⟩

/-- Each patch is shallow enough to be read, but the second one goes inside the first. The save
succeeds, and the next session cannot load the file. -/
theorem saved_unreadable :
    (nested 100).depth ≤ Cursor.depthLimit ∧ (nested 27).depth ≤ Cursor.depthLimit ∧
      Run DiskHost.OthersWrite unsettled [] patchedTwice ∧ (patchedTwice.save 0).1 = .ok () ∧
      ∃ reason, ((restarted (patchedTwice.save 0).2).load none 0).1 = .error (.load reason) := by
  have deep : Cursor.depthLimit < (nesting 126).toJson.depth := by decide +kernel
  have htext := (run_patchedTwice.orderly orderly_start).written
    (congrArg Store.loaded loaded_patchedTwice) save_patchedTwice
  exact ⟨by decide +kernel, by decide +kernel, run_patchedTwice, save_patchedTwice,
    (resumes_restarted _).fails htext (exact_nesting 126) deep 0⟩

end ShellSettings.Session
