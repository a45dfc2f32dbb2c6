import ShellSettings.Proofs.Sync.MemoryRun

/-!
# Waiting for the result of a save

A blocking save takes in what its host delivers until the result comes. Everything that is
delivered before is taken in as usual and leaves the save in flight
(`Session.awaitResult_append`), so what the save comes to is decided by its own result, or by
there being none.
-/

namespace ShellSettings

def HostMessage.IsResultOf (id : String) (m : HostMessage) : Prop :=
  ∃ ok error, m = .persistResult id ok error

theorem EchoGuard.inFlight?_eq_none {g : EchoGuard} :
    g.inFlight? = none ↔ ∀ save, g ≠ .awaitingEcho save := by
  cases g <;> simp [inFlight?]

namespace Client

variable {c c' : Client} {m : HostMessage} {outcome : Except SyncError Outcome} {now : Nat}
  {save : InFlightSave} {front : List HostMessage}

def takeAll (c : Client) (ms : List HostMessage) (now : Nat) : Client :=
  ms.foldl (fun c m => (c.handle m now).2) c

/-- A save stays in flight until its own result comes, and nothing before is taken for one. -/
theorem Handled.awaiting (h : c.Handled now m outcome c') (untimed : c.config.echoTimeout = none)
    (hg : c.guard = .awaitingEcho save) (other : ¬ m.IsResultOf save.requestId) :
    (∃ o, outcome = .ok o ∧ (∀ id, o ≠ .saveConfirmed id) ∧ ∀ id e, o ≠ .saveFailed id e) ∧
      ∃ save', c'.guard = .awaitingEcho save' ∧ Continues save save' := by
  cases h with
  | suppressed suppresses =>
    rw [hg] at suppresses
    generalize c'.guard = g' at suppresses
    cases suppresses with
    | first => exact ⟨⟨_, rfl, nofun, nofun⟩, _, rfl, rfl, rfl, rfl, id⟩
  | replaced passes =>
    rw [hg] at passes
    generalize c'.guard = g' at passes
    cases passes with
    | second => exact ⟨⟨_, rfl, nofun, nofun⟩, _, rfl, rfl, rfl, rfl, fun _ => rfl⟩
    | stale timed => exact absurd untimed timed
  | stale => exact ⟨⟨_, rfl, nofun, nofun⟩, _, hg, rfl, rfl, rfl, id⟩
  | failed guard own | overtaken guard own | confirmed guard own | unloaded guard own =>
    cases hg.symm.trans guard
    exact absurd ⟨_, _, congrArg (HostMessage.persistResult · _ _) own.symm⟩ other
  | catalog guard => exact ⟨⟨_, rfl, nofun, nofun⟩, _, guard ▸ hg, rfl, rfl, rfl, id⟩

theorem Handled.free (h : c.Handled now m outcome c') (hfree : c.guard.inFlight? = none) :
    c'.guard.inFlight? = none := by
  refine EchoGuard.inFlight?_eq_none.mpr fun save' hg' => ?_
  obtain ⟨save, hg, -⟩ := h.inFlight hg'
  exact EchoGuard.inFlight?_eq_none.mp hfree save hg

theorem Handled.result_free {ok : Bool} {e : Option HostError}
    (h : c.Handled now (.persistResult save.requestId ok e) outcome c')
    (hg : c.guard = .awaitingEcho save) : c'.guard.inFlight? = none := by
  rcases h.own_result hg rfl with h | h
  · rw [h]
    rfl
  · rw [h, guardAfter]
    split <;> rfl

theorem takeAll_awaiting {l : Loaded} (now : Nat) (untimed : c.config.echoTimeout = none)
    (hg : c.guard = .awaitingEcho save) (others : ∀ m ∈ front, ¬ m.IsResultOf save.requestId)
    (hl : c.store.loaded = some l) :
    (∃ save', (c.takeAll front now).guard = .awaitingEcho save' ∧
        save'.requestId = save.requestId) ∧
      (∃ l', (c.takeAll front now).store.loaded = some l') ∧
      (c.takeAll front now).config = c.config := by
  induction front generalizing c save l with
  | nil => exact ⟨⟨save, hg, rfl⟩, ⟨l, hl⟩, rfl⟩
  | cons m front ih =>
    have handled : c.Handled now m (c.handle m now).1 (c.handle m now).2 := handled_handle rfl
    rw [List.forall_mem_cons] at others
    obtain ⟨-, save', hg', continues⟩ := handled.awaiting untimed hg others.1
    obtain ⟨l', hl'⟩ := handled.loaded hl
    rw [← continues.requestId] at others ⊢
    obtain ⟨awaiting, loaded, hconfig⟩ := ih (handled.config_eq ▸ untimed) hg' others.2 hl'
    exact ⟨awaiting, loaded, hconfig.trans handled.config_eq⟩

end Client

namespace Session

variable {s : Session MemoryHost} {save : InFlightSave} {id : String} {m : HostMessage}
  {front rest : List HostMessage} {now : Nat}

theorem receive_cons (hin : s.host.inbox = m :: rest) :
    Transport.receive s.host = (.ok (some m), { s.host with inbox := rest }) := by
  change MemoryHost.receive s.host = _
  simp [MemoryHost.receive, hin]

theorem awaitResult_nil (hin : s.host.inbox = []) :
    s.awaitResult id now =
      (.error (.persistTimedOut id s.client.config.persistTimeout), s) := by
  have hreceive : Transport.receive s.host = (.ok none, s.host) := by
    change MemoryHost.receive s.host = _
    simp [MemoryHost.receive, hin]
  rw [awaitResult]
  split
  · rename_i h
    cases hreceive.symm.trans h
  · rename_i h
    cases hreceive.symm.trans h
    rfl
  · rename_i h
    cases hreceive.symm.trans h

theorem awaitResult_cons (hin : s.host.inbox = m :: rest) :
    s.awaitResult id now =
      match s.client.handle m now with
      | (.error e, client) => (.error e, ⟨client, { s.host with inbox := rest }⟩)
      | (.ok (.saveConfirmed other), client) =>
        if other = id then (.ok (), ⟨client, { s.host with inbox := rest }⟩)
        else awaitResult ⟨client, { s.host with inbox := rest }⟩ id now
      | (.ok (.saveFailed other error), client) =>
        if other = id then
          (.error (.persist error.display), ⟨client, { s.host with inbox := rest }⟩)
        else awaitResult ⟨client, { s.host with inbox := rest }⟩ id now
      | (.ok _, client) => awaitResult ⟨client, { s.host with inbox := rest }⟩ id now := by
  have hreceive := receive_cons hin
  rw [awaitResult]
  split
  · rename_i h
    cases hreceive.symm.trans h
  · rename_i h
    cases hreceive.symm.trans h
  · rename_i h
    cases hreceive.symm.trans h
    rfl

theorem awaitResult_append (untimed : s.client.config.echoTimeout = none)
    (hg : s.client.guard = .awaitingEcho save) (own : save.requestId = id)
    (others : ∀ m ∈ front, ¬ m.IsResultOf id) (hin : s.host.inbox = front ++ rest) :
    s.awaitResult id now =
      awaitResult ⟨s.client.takeAll front now, { s.host with inbox := rest }⟩ id now := by
  induction front generalizing s save with
  | nil =>
    obtain ⟨client, host⟩ := s
    cases hin
    rfl
  | cons m front ih =>
    rw [List.forall_mem_cons] at others
    have handled : s.client.Handled now m (s.client.handle m now).1 (s.client.handle m now).2 :=
      Client.handled_handle rfl
    obtain ⟨⟨o, houtcome, notConfirmed, notFailed⟩, save', hg', continues⟩ :=
      handled.awaiting untimed hg (own ▸ others.1)
    have hnext : s.awaitResult id now = awaitResult
        ⟨(s.client.handle m now).2, { s.host with inbox := front ++ rest }⟩ id now := by
      rw [awaitResult_cons hin]
      generalize s.client.handle m now = r at houtcome
      obtain ⟨r, client⟩ := r
      cases houtcome
      cases o with
      | saveConfirmed other => exact absurd rfl (notConfirmed other)
      | saveFailed other error => exact absurd rfl (notFailed other error)
      | echoSuppressed | externalReplaced | staleResult | catalogApplied => rfl
    rw [hnext]
    exact ih (handled.config_eq ▸ untimed) hg' (continues.requestId.trans own) others.2 rfl

/-- If no result of its own comes, a save is given up, and is in flight still. -/
theorem awaitResult_lost {l : Loaded} (now : Nat)
    (untimed : s.client.config.echoTimeout = none)
    (hg : s.client.guard = .awaitingEcho save) (own : save.requestId = id)
    (hl : s.client.store.loaded = some l) (others : ∀ m ∈ s.host.inbox, ¬ m.IsResultOf id) :
    (s.awaitResult id now).1 =
        .error (.persistTimedOut id s.client.config.persistTimeout) ∧
      ∃ save', (s.awaitResult id now).2.client.guard = .awaitingEcho save' ∧
        save'.requestId = id := by
  subst own
  obtain ⟨awaiting, -, hconfig⟩ := Client.takeAll_awaiting now untimed hg others hl
  rw [awaitResult_append untimed hg rfl others (List.append_nil _).symm, awaitResult_nil rfl]
  exact ⟨by rw [hconfig], awaiting⟩

theorem awaitResult_failed_own {e : HostError} (hg : s.client.guard = .awaitingEcho save)
    (own : save.requestId = id) (hin : s.host.inbox = .persistFailed id e :: rest) :
    s.awaitResult id now = (.error (.persist e.display),
      ⟨{ s.client with guard := .idle }.countFailed, { s.host with inbox := rest }⟩) := by
  subst own
  have hm : s.client.handle (.persistFailed save.requestId e) now = _ :=
    Client.handle_failed (some e) now hg
  rw [awaitResult_cons hin, hm]
  simp

/-- So does a confirmation. The document saved becomes the snapshot, unless another one has replaced
it since. -/
theorem awaitResult_persisted_own {l : Loaded} (now : Nat)
    (hg : s.client.guard = .awaitingEcho save)
    (own : save.requestId = id) (hl : s.client.store.loaded = some l)
    (hin : s.host.inbox = .persisted id :: rest) :
    ∃ client, s.awaitResult id now = (.ok (), ⟨client, { s.host with inbox := rest }⟩) ∧
      client.guard.inFlight? = none ∧
      if save.superseded then client.store = s.client.store
      else client.store = { s.client.store with
        loaded := some { l with snapshot := save.document, repaired := false } } := by
  subst own
  cases hs : save.superseded with
  | true =>
    let client : Client := { s.client with guard := .idle }.countConfirmed now
    have hm : s.client.handle (.persisted save.requestId) now =
        (.ok (.saveConfirmed save.requestId), client) := by
      simp [client, Client.handle, HostMessage.persisted, Client.handleResult, EchoGuard.settle,
        hg, hs]
    rw [awaitResult_cons hin, hm]
    exact ⟨client, by simp, rfl, rfl⟩
  | false =>
    have hm := Client.handle_persisted now hg rfl hs hl
    rw [awaitResult_cons hin, hm]
    refine ⟨s.client.confirmed save l now, by simp, ?_, rfl⟩
    simp only [Client.confirmed, Client.guardAfter]
    split <;> rfl

end Session

end ShellSettings
