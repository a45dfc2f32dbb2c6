import ShellSettings.Proofs.Sync.ClientLaws
import ShellSettings.Proofs.Sync.Run

/-!
# Sessions with any host

Nothing is assumed of the host here. It takes a request or refuses it, it may be
another at any moment, and any message can be taken in at any time, whether or not
there was a request for it (`Session.Steps`). The store may be used directly in
between. Runs of a session are such steps (`Run.steps`).
-/

namespace ShellSettings

-- ---------------------------------------------------------------------------
-- Request ids
-- ---------------------------------------------------------------------------

/-- Leading zeros change nothing of a number. -/
theorem requestId_inj {m n : Nat} : requestId m = requestId n ↔ m = n := by
  refine ⟨fun h => ?_, fun h => h ▸ rfl⟩
  have value : ∀ n k, Nat.ofDigitChars 10 (List.replicate k '0' ++ Nat.toDigits 10 n) 0 = n := by
    intro n k
    rw [Nat.ofDigitChars_append, Nat.ofDigitChars_replicate_zero, Nat.mul_zero,
      Nat.ofDigitChars_ten_toDigits]
  have hdigits := congrArg String.toList h
  simp only [requestId, String.toList_append, String.toList_ofList, List.append_cancel_left_eq]
    at hdigits
  rw [← value m, hdigits, value n]

namespace Client

theorem counter_handle (c : Client) (m : HostMessage) (now : Nat) :
    (c.handle m now).2.counter = c.counter := by
  cases m with
  | catalogUpdated feed => rfl
  | changed d =>
    rcases EchoGuard.classify_cases c.guard d.digest c.config.echoTimeout now with
      ⟨id, matching, g', h, -⟩ | ⟨inbound, g', h, rfl | ⟨id, rfl⟩, -⟩
    all_goals simp only [handle, handleChanged, h, replace_eq, countExpired]
  | persistResult id ok e =>
    simp only [handle, handleResult]
    repeat' split
    all_goals rfl

end Client

namespace Session

variable {η : Type}

inductive Report where
  -- What came of beginning a save.
  | save (result : Except SyncError String)
  -- What came of a message.
  | message (m : HostMessage) (result : Except SyncError Outcome)

/-- The sessions that can be reached with any host, each with what was reported on the way. -/
inductive Steps [Transport η] (start : Session η) : List Report → Session η → Prop
  | start : Steps start [] start
  | edit {log s} (c : StoreCommand) (steps : Steps start log s) : Steps start log (s.edit c)
  | host {log s} (host : η) (steps : Steps start log s) : Steps start log { s with host }
  | load {log s} (path : Option String) (now : Nat) (steps : Steps start log s) :
    Steps start log (s.load path now).2
  | beginSave {log s} (now : Nat) (steps : Steps start log s) :
    Steps start (log ++ [.save (s.beginSave now).1]) (s.beginSave now).2
  | handle {log s} (m : HostMessage) (now : Nat) (steps : Steps start log s) :
    Steps start (log ++ [.message m (s.client.handle m now).1])
      { s with client := (s.client.handle m now).2 }

/-- Every way in which a save is begun. A stale guard may be cleared before anything else. -/
inductive Tried (s : Session η) : Except SyncError String → Client → Prop
  | declined {e c'} (expired : Nat) (reason : ∀ text, e ≠ .persist text)
    (guard : c'.guard = s.client.guard ∨ c'.guard = .idle) (store : c'.store = s.client.store)
    (counter : c'.counter = s.client.counter)
    (status : c'.status = { s.client.status with guardsExpired := expired })
    (config : c'.config = s.client.config) :
    Tried s (.error e) c'
  | refused {text c'} (expired : Nat) (guard : c'.guard = .idle)
    (store : c'.store = s.client.store) (counter : c'.counter = s.client.counter + 1)
    (status : c'.status = { s.client.status with
      guardsExpired := expired, saveFailures := s.client.status.saveFailures + 1 })
    (config : c'.config = s.client.config) :
    Tried s (.error (.persist text)) c'
  | sent {l c'} (expired : Nat) (save : InFlightSave)
    (own : save.requestId = requestId (s.client.counter + 1))
    (loaded : s.client.store.loaded = some l) (guard : c'.guard = .awaitingEcho save)
    (document : save.document = l.current) (fresh : save.echoSeen = false ∧ save.superseded = false)
    (store : c'.store = s.client.store) (counter : c'.counter = s.client.counter + 1)
    (status : c'.status = { s.client.status with guardsExpired := expired })
    (config : c'.config = s.client.config) :
    Tried s (.ok save.requestId) c'

variable {start s : Session η} {log : List Report} {id : String}

theorem Tried.counter_le {r : Except SyncError String} {c' : Client} (h : s.Tried r c') :
    s.client.counter ≤ c'.counter := by
  cases h with
  | declined _ _ _ _ counter | refused _ _ _ counter | sent _ _ _ _ _ _ _ _ counter => omega

theorem Tried.grounded {r : Except SyncError String} {c' : Client} (h : s.Tried r c')
    (hs : s.client.Grounded) : c'.Grounded := by
  cases h with
  | declined _ _ guard store =>
    rcases guard with guard | guard
    · exact fun save hg => store ▸ hs save (guard ▸ hg)
    · exact Client.grounded_of_idle guard
  | refused _ guard => exact Client.grounded_of_idle guard
  | sent _ _ _ loaded _ _ _ store => exact fun _ _ => ⟨_, store ▸ loaded⟩

variable [Transport η]

theorem expireGuard_frame (c : Client) (now : Nat) :
    (expireGuard c now).counter = c.counter ∧
      ∃ expired, (expireGuard c now).status = { c.status with guardsExpired := expired } := by
  unfold expireGuard
  split
  · exact ⟨rfl, _, rfl⟩
  · exact ⟨rfl, _, rfl⟩

theorem tried_beginSave (s : Session η) (now : Nat) :
    s.Tried (s.beginSave now).1 (s.beginSave now).2.client := by
  obtain ⟨⟨hconfig, -⟩, hstore, hguard⟩ := expireGuard_cases s.client now
  obtain ⟨hcounter, expired, hstatus⟩ := expireGuard_frame s.client now
  unfold beginSave
  dsimp only
  generalize expireGuard s.client now = c at *
  have hguard := hguard.imp_right And.left
  split
  · exact .declined expired nofun hguard hstore hcounter hstatus hconfig
  · split
    · exact .declined expired nofun hguard hstore hcounter hstatus hconfig
    · rename_i d hget
      obtain ⟨l, hl, rfl⟩ := Store.get_eq_ok hget
      have hnext : c.nextRequest.1 = requestId (s.client.counter + 1) ∧
          c.nextRequest.2.counter = s.client.counter + 1 := by
        simp only [Client.nextRequest, hcounter, and_self]
      split
      · refine .refused expired rfl hstore hnext.2 ?_ hconfig
        simp only [Client.nextRequest, Client.countFailed, hstatus]
      · let save : InFlightSave := {
          requestId := c.nextRequest.1, digest := l.current.digest, document := l.current
          armedAt := now }
        exact .sent expired save hnext.1 (hstore ▸ hl) rfl rfl ⟨rfl, rfl⟩ hstore hnext.2 hstatus
          hconfig

theorem wellFormed_of_loadedDocument {r : HostResponse} {d : Document}
    (h : loadedDocument r = .ok d) : d.WellFormed := by
  unfold loadedDocument at h
  repeat' split at h
  all_goals first
    | cases h; done
    | cases h; exact Document.wellFormed_of_read (by assumption)

theorem load_frame (s : Session η) (path : Option String) (now : Nat) :
    (s.load path now).2.client.guard = s.client.guard ∧
      (s.load path now).2.client.counter = s.client.counter + 1 ∧
      (∃ loadedAt, (s.load path now).2.client.status =
        { s.client.status with lastLoadedAt := loadedAt }) ∧
      ((s.load path now).2.client.store = s.client.store ∨
        ∃ d, d.WellFormed ∧ (s.load path now).2.client.store = (s.client.store.install d).1) := by
  unfold load
  dsimp only
  repeat' split
  · exact ⟨rfl, rfl, ⟨_, rfl⟩, .inl rfl⟩
  · exact ⟨rfl, rfl, ⟨_, rfl⟩, .inl rfl⟩
  · rename_i hd
    exact ⟨rfl, rfl, ⟨_, rfl⟩, .inr ⟨_, wellFormed_of_loadedDocument hd, rfl⟩⟩

theorem load_host (s : Session η) (path : Option String) (now : Nat) :
    (s.load path now).2.host =
      (Transport.request s.host (.load (requestId (s.client.counter + 1)) path)).2 := by
  unfold load
  dsimp only [Client.nextRequest]
  repeat' split
  all_goals simp only [*]

theorem beginSave_host (s : Session η) (now : Nat) :
    ((s.beginSave now).2.host = s.host ∧ ∀ id, (s.beginSave now).1 ≠ .ok id) ∨
      ∃ l, s.client.store.loaded = some l ∧
        (s.beginSave now).2.client.counter = s.client.counter + 1 ∧
        (s.beginSave now).2.host = (Transport.submit s.host
          (.persist (requestId (s.client.counter + 1)) l.current l.current.digest)).2 := by
  obtain ⟨-, hstore, -⟩ := expireGuard_cases s.client now
  obtain ⟨hcounter, -⟩ := expireGuard_frame s.client now
  unfold beginSave
  dsimp only
  generalize expireGuard s.client now = c at *
  split
  · exact .inl ⟨rfl, nofun⟩
  · split
    · exact .inl ⟨rfl, nofun⟩
    · rename_i d hget
      obtain ⟨l, hl, rfl⟩ := Store.get_eq_ok hget
      refine .inr ⟨l, hstore ▸ hl, ?_⟩
      dsimp only [Client.nextRequest]
      rw [hcounter]
      split
      · exact ⟨rfl, by simp only [*]⟩
      · exact ⟨rfl, by simp only [*]⟩

-- ---------------------------------------------------------------------------
-- What steps keep
-- ---------------------------------------------------------------------------

theorem Steps.numbered (steps : Steps start log s) (h : .save (.ok id) ∈ log) :
    ∃ n ≤ s.client.counter, id = requestId n := by
  induction steps with
  | start => cases h
  | edit _ _ ih | host _ _ ih => exact ih h
  | @load log s path now _ ih =>
    obtain ⟨n, hn, hid⟩ := ih h
    obtain ⟨-, hcounter, -⟩ := load_frame s path now
    exact ⟨n, by omega, hid⟩
  | @beginSave log s now _ ih =>
    have tried := tried_beginSave s now
    rcases List.mem_append.mp h with h | h
    · obtain ⟨n, hn, hid⟩ := ih h
      exact ⟨n, Nat.le_trans hn tried.counter_le, hid⟩
    · have hr := Report.save.inj (List.mem_singleton.mp h)
      rw [← hr] at tried
      cases tried with
      | sent _ _ own _ _ _ _ _ counter => exact ⟨_, Nat.le_of_eq counter.symm, own⟩
  | @handle log s m now _ ih =>
    rw [Client.counter_handle]
    rcases List.mem_append.mp h with h | h
    · exact ih h
    · simp at h

theorem loaded_execute {store : Store} {l : Loaded} (c : StoreCommand)
    (hl : store.loaded = some l) : ∃ l', (store.execute c).2.loaded = some l' := by
  cases c with
  | load d | replace d => exact ⟨_, Store.install_loaded store d⟩
  | markSaved d => exact ⟨{ l with snapshot := d, repaired := false }, by
      simp [Store.execute, Store.markSaved, Store.settle, hl]⟩
  | restore | patch | patchAt | createInstance | deleteInstance | createCollection | setResources
  | deleteCollection | setWallpaper | applyCatalog =>
    refine Store.Edited.loaded (Store.edited_execute ?_) hl
    trivial

theorem Steps.grounded (steps : Steps start log s) (h : start.client.Grounded) :
    s.client.Grounded := by
  induction steps with
  | start => exact h
  | edit c _ ih =>
    intro save hg
    obtain ⟨l, hl⟩ := ih save hg
    exact loaded_execute c hl
  | host _ _ ih => exact ih
  | @load log s path now _ ih =>
    obtain ⟨hguard, -, -, hstore⟩ := load_frame s path now
    intro save hg
    rcases hstore with hstore | ⟨d, -, hstore⟩
    · exact hstore ▸ ih save (hguard ▸ hg)
    · exact ⟨_, hstore ▸ Store.install_loaded _ d⟩
  | beginSave now _ ih => exact (tried_beginSave _ now).grounded ih
  | handle m now _ ih => exact ih.handled (Client.handled_handle rfl)

theorem Run.steps {moves : η → η → Prop} {events : List (Event η)}
    (run : Run moves start events s) : ∃ log, Steps start log s := by
  induction run with
  | start => exact ⟨[], .start⟩
  | edit _ _ ih => exact ⟨_, ih.choose_spec.edit _⟩
  | host _ _ ih | poll _ _ _ ih => exact ⟨_, ih.choose_spec.host _⟩
  | load path now _ ih => exact ⟨_, ih.choose_spec.load path now⟩
  | beginSave now _ ih => exact ⟨_, ih.choose_spec.beginSave now⟩
  | @take log s m host outcome c now _ _ hm ih =>
    have taken := ih.choose_spec.handle m now
    rw [hm] at taken
    exact ⟨_, taken.host host⟩

end Session

end ShellSettings
