import ShellSettings.Cli.Run
import ShellSettings.Proofs.Store.CatalogOrder
import ShellSettings.Proofs.Sync.Reload

/-!
# The session of one run

A run opens its document as the host loads it, with the catalogs of the arguments
published before (`openSession_eq`). Nothing is on its way then, so a save comes out
as the writing of the document does (`Opened.Ready.save_eq`). Every command that
changes the document ends with a store that is saved if it needs to be, and leaves
the files alone otherwise (`Opened.Concludes`).
-/

namespace ShellSettings.Cli

variable {env : Environment} {tuning : Tuning} {path : FilePath} {t : FileTree} {l : Loaded}
  {feeds : List Feed} {d : Document}

theorem echoTimeout_ne_zero (tuning : Tuning) : tuning.echoTimeout ≠ some 0 := by
  unfold Tuning.echoTimeout
  split
  · nofun
  · intro h
    have : 1000 * tuning.echoSeconds = 0 := Option.some.inj h
    omega

theorem ofTuning_eq_ok {client : Client} {ids : IdSource}
    (h : Client.ofTuning tuning ids = .ok client) :
    client.config.echoTimeout ≠ some 0 ∧ client.guard = .idle ∧
      client.store.catalog = .empty := by
  unfold Client.ofTuning at h
  split at h
  · cases h
  · cases h
    exact ⟨echoTimeout_ne_zero tuning, rfl, rfl⟩

namespace Opened

def holding (client : Client) (host : DiskHost) (d : Document) (now : Nat) : Opened where
  session := {
    client := { client with
      counter := client.counter + 1
      store := (client.store.install d).1
      status := { client.status with lastLoadedAt := some now } }
    host }
  dropped := (client.store.install d).2

/-- Nothing is on its way, and a save does not wait for nothing. -/
structure Ready (o : Opened) : Prop where
  idle : o.session.client.guard = .idle
  drained : o.session.host.inbox = []
  timed : o.session.client.config.echoTimeout ≠ some 0

theorem Ready.withStore {o : Opened} (ready : o.Ready) (store : Store) :
    (o.withStore store).Ready := ⟨ready.idle, ready.drained, ready.timed⟩

theorem Ready.save_eq {o : Opened} (ready : o.Ready) (hl : o.store.loaded = some l)
    (hd : l.current.WellFormed) (now : Nat) (before after : List String) :
    (o.save now before after).2 =
        (DiskHost.writeDocument o.session.host.path l.current o.tree).2 ∧
      ((o.save now before after).1.code = 0 ↔
        (DiskHost.writeDocument o.session.host.path l.current o.tree).1 = .ok ()) := by
  obtain ⟨htree, hsave⟩ :=
    Session.save_idle hd ready.timed ready.idle ready.drained hl now
  -- What was written decides both the answer to the save and the files.
  unfold save tree
  generalize DiskHost.writeDocument o.session.host.path l.current o.session.host.tree = written
    at htree hsave ⊢
  rcases hs : o.session.save now with ⟨e | _, s⟩
  · rw [hs] at htree hsave
    refine ⟨htree, ?_⟩
    cases hw : written.1 with
    | ok _ => simp [hw] at hsave
    | error _ => simp [Output.failure]
  · rw [hs] at htree hsave
    refine ⟨htree, ?_⟩
    cases hw : written.1 with
    | ok _ => simp
    | error _ => simp [hw] at hsave

/-- A command that has come to this store ends well without touching a file if the store needs no
save, and otherwise as the writing of its document does. -/
structure Concludes (o : Opened) (s : Store) (result : Output × FileTree) : Prop where
  kept : s.needsSave = false → result.1.code = 0 ∧ result.2 = o.tree
  saved : s.needsSave = true → ∀ l, s.loaded = some l →
    (result.1.code = 0 ↔
      (DiskHost.writeDocument o.session.host.path l.current o.tree).1 = .ok ()) ∧
    result.2 = (DiskHost.writeDocument o.session.host.path l.current o.tree).2

variable {o : Opened} {s : Store} {c : StoreCommand} {reply : StoreReply} {feed : Feed}

theorem Ready.concludes_save (ready : o.Ready) (lasting : s.Lasting)
    (hs : s.needsSave = true) (now : Nat) (before after : List String) :
    o.Concludes s ((o.withStore s).save now before after) := by
  refine ⟨fun hclean => by simp [hs] at hclean, fun _ l hl => ?_⟩
  exact ((ready.withStore s).save_eq hl (lasting l hl).1.wellFormed now before after).symm

theorem Ready.concludes_change (ready : o.Ready) (lasting : s.Lasting)
    (h : o.store.execute c = (.ok reply, s)) (now : Nat) : o.Concludes s (o.change now c) := by
  unfold change
  rw [h]
  dsimp only
  split
  · exact ready.concludes_save lasting ‹_› now _ _
  · rename_i hclean
    exact ⟨fun _ => ⟨rfl, rfl⟩, fun hs => absurd hs hclean⟩

theorem Ready.concludes_prune (ready : o.Ready)
    (lasting : (o.store.applyCatalog feed).1.Lasting) (now : Nat) :
    o.Concludes (o.store.applyCatalog feed).1 (o.prune now feed) := by
  unfold prune
  dsimp only
  split
  · exact ready.concludes_save lasting ‹_› now _ _
  · rename_i hclean
    exact ⟨fun _ => ⟨rfl, rfl⟩, fun hs => absurd hs hclean⟩

/-- What was dropped on loading is all that there is to fix. -/
theorem Ready.concludes_fix (ready : o.Ready) (lasting : o.store.Lasting)
    (hl : o.store.loaded = some l) (dropped : o.store.needsSave = !o.dropped.isEmpty) (now : Nat) :
    o.Concludes o.store (o.check now true) := by
  have hget : o.store.get = .ok l.current := Store.get_of_loaded hl
  unfold check
  simp only [hget, if_true]
  split
  · rename_i hnone
    rw [hnone] at dropped
    exact ⟨fun _ => ⟨rfl, rfl⟩, fun hs => by simp [dropped] at hs⟩
  · rename_i hsome
    have hs : o.store.needsSave = true := by simpa [hsome] using dropped
    exact ready.concludes_save lasting hs now _ _

end Opened

theorem openSession_eq (env : Environment) (tuning : Tuning) (path : FilePath) (feeds : List Feed)
    (t : FileTree) :
    openSession env tuning path feeds t = match Client.ofTuning tuning env.ids with
      | .error e => (.error (.failure ("Error in core config: " ++ e.message)), t)
      | .ok client => match DiskHost.load { path, tree := t } none with
        | (.error e, host) =>
          (.error (.failure ("Error loading settings from " ++ path.text ++ ": " ++
            (SyncError.load (HostError.storageFailure e.message).display).message)), host.tree)
        | (.ok d, host) =>
          (.ok (.holding { client with store := client.store.publishAll feeds } host d env.now),
            host.tree) := by
  unfold openSession
  cases Client.ofTuning tuning env.ids with
  | error e => rfl
  | ok client =>
    dsimp only
    rw [Session.load_disk]
    dsimp only
    rcases DiskHost.load { path, tree := t } none with ⟨e | d, host⟩
    · rfl
    · rfl

end ShellSettings.Cli
