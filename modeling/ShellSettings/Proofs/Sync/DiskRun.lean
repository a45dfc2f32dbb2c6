import ShellSettings.Proofs.Host.DiskLaws
import ShellSettings.Proofs.Store.Lasting
import ShellSettings.Proofs.Sync.AnyHost

/-!
# Runs with a host on disk

Others may do anything to the files in between. All the same every document that
a session holds lasts, and what its host has still to deliver can be read and
bears only numbers that were given out (`Run.orderly`). So the result that ends a
blocking save is its own, and the save succeeds only if the document was written
(`Orderly.written`).
-/

namespace ShellSettings

namespace DiskHost

variable {h h' : DiskHost} {r : HostRequest} {d : Document} {m : HostMessage}

def OthersWrite (h h' : DiskHost) : Prop := ∃ tree, h' = { h with tree }

theorem savable_of_owed (hm : .changed d ∈ h.owed r) : r.savable = .ok d := by
  unfold owed at hm
  split at hm
  · split at hm
    · rename_i d' _ hsavable _
      simp only [HostMessage.persisted, List.mem_cons, HostMessage.changed.injEq, reduceCtorEq,
        List.not_mem_nil, or_false] at hm
      exact hm ▸ hsavable
    · simp [HostMessage.persisted] at hm
    · simp [HostMessage.persistFailed] at hm
  · cases hm

theorem own_of_owed {id : String} {ok : Bool} {e : Option HostError}
    (hm : .persistResult id ok e ∈ h.owed r) :
    r.op = Protocol.persistOp ∧ id = r.id ∧ (ok = true → (h.persist r).1 = .ok ()) := by
  unfold owed at hm
  split at hm
  · rename_i op
    split at hm
    · rename_i hpersist
      simp only [HostMessage.persisted, List.mem_cons, HostMessage.persistResult.injEq,
        reduceCtorEq, List.not_mem_nil, or_false, false_or] at hm
      exact ⟨op, hm.1, fun _ => hpersist⟩
    · rename_i hpersist _
      simp only [HostMessage.persisted, List.mem_cons, HostMessage.persistResult.injEq,
        List.not_mem_nil, or_false] at hm
      exact ⟨op, hm.1, fun _ => hpersist⟩
    · simp only [HostMessage.persistFailed, List.mem_cons, HostMessage.persistResult.injEq,
        List.not_mem_nil, or_false] at hm
      exact ⟨op, hm.1, fun hok => by simp [hm.2.1] at hok⟩
  · cases hm

theorem receive_cases (e : h.receive = (.ok (some m), h')) :
    (h'.path = h.path ∧ h'.tree = h.tree) ∧
      (h.inbox = m :: h'.inbox ∨ h'.inbox = [] ∧ ∃ d, m = .changed d ∧ d.WellFormed) := by
  cases hinbox : h.inbox with
  | cons first rest =>
    rw [receive_cons hinbox] at e
    cases e
    exact ⟨⟨rfl, rfl⟩, .inl rfl⟩
  | nil =>
    rw [receive_nil hinbox] at e
    split at e
    · cases e
    · rename_i d hd
      cases e
      obtain ⟨last, -, hr, -⟩ := externalEdit?_eq_some.mp hd
      exact ⟨⟨rfl, rfl⟩, .inr ⟨hinbox, d, rfl, wellFormed_of_readDocument hr⟩⟩

theorem receive_nothing {result : Except TransportError (Option HostMessage)}
    (e : h.receive = (result, h')) (hr : ∀ m, result ≠ .ok (some m)) : h' = h := by
  cases hinbox : h.inbox with
  | cons first rest =>
    rw [receive_cons hinbox] at e
    cases e
    exact absurd rfl (hr first)
  | nil =>
    rw [receive_nil hinbox] at e
    split at e
    · cases e
      rfl
    · cases e
      exact absurd rfl (hr _)

end DiskHost

-- ---------------------------------------------------------------------------
-- The client
-- ---------------------------------------------------------------------------

namespace Client

structure Lasting (c : Client) : Prop where
  store : c.store.Lasting
  inFlight : ∀ save, c.guard = .awaitingEcho save → save.document.Lasting

variable {c c' : Client} {m : HostMessage} {outcome : Except SyncError Outcome} {now : Nat}

theorem Lasting.handled (hc : c.Lasting) (h : c.Handled now m outcome c')
    (hm : ∀ d, m = .changed d → d.WellFormed) : c'.Lasting := by
  refine ⟨?_, fun save' hg => ?_⟩
  · cases h with
    | suppressed _ store | failed _ _ _ store | overtaken _ _ _ _ store
    | unloaded _ _ _ _ _ store => exact store ▸ hc.store
    | replaced _ store => exact store ▸ Store.lasting_install _ (hm _ rfl)
    | stale => exact hc.store
    | confirmed guard _ _ _ store => exact hc.store.markSaved (hc.inFlight _ guard) store
    | catalog _ store => exact store ▸ hc.store.edited (.published _ rfl)
  · obtain ⟨save, hsave, continues⟩ := h.inFlight hg
    exact continues.document ▸ hc.inFlight save hsave

theorem result_of_confirmed {id : String} (h : c.Handled now m (.ok (.saveConfirmed id)) c') :
    ∃ e, m = .persistResult id true e := by
  cases h with
  | overtaken | confirmed => exact ⟨_, rfl⟩

end Client

namespace Session

variable {s : Session DiskHost} {log : List (Event DiskHost)} {l : Loaded}

theorem Tried.lasting {r : Except SyncError String} {c' : Client} (h : s.Tried r c')
    (hs : s.client.Lasting) : c'.Lasting := by
  cases h with
  | declined _ _ guard store =>
    refine ⟨store ▸ hs.store, fun save hg => ?_⟩
    rcases guard with guard | guard
    · exact hs.inFlight save (guard ▸ hg)
    · cases guard.symm.trans hg
  | refused _ guard store =>
    refine ⟨store ▸ hs.store, fun save hg => ?_⟩
    cases guard.symm.trans hg
  | sent _ save _ loaded guard document _ store =>
    refine ⟨store ▸ hs.store, fun save' hg => ?_⟩
    cases guard.symm.trans hg
    exact document ▸ (hs.store _ loaded).1

-- ---------------------------------------------------------------------------
-- Every state
-- ---------------------------------------------------------------------------

structure Orderly (s : Session DiskHost) : Prop where
  lasting : s.client.Lasting
  changes : ∀ d, .changed d ∈ s.host.inbox → d.WellFormed
  results : ∀ id ok e, .persistResult id ok e ∈ s.host.inbox →
    ∃ n ≤ s.client.counter, id = requestId n

theorem Orderly.load (h : s.Orderly) (path : Option String) (now : Nat) :
    (s.load path now).2.Orderly := by
  obtain ⟨hguard, hcounter, -, hstore⟩ := load_frame s path now
  have hinbox : (s.load path now).2.host.inbox = s.host.inbox := by
    rw [load_host]
    exact DiskHost.inbox_request _ _
  refine ⟨⟨?_, hguard ▸ h.lasting.inFlight⟩, hinbox ▸ h.changes, fun id ok e hm => ?_⟩
  · rcases hstore with hstore | ⟨d, hd, hstore⟩
    · exact hstore ▸ h.lasting.store
    · exact hstore ▸ Store.lasting_install _ hd
  · obtain ⟨n, hn, hid⟩ := h.results id ok e (hinbox ▸ hm)
    exact ⟨n, by omega, hid⟩

theorem Orderly.beginSave (h : s.Orderly) (now : Nat) : (s.beginSave now).2.Orderly := by
  have tried := tried_beginSave s now
  have hcounter := tried.counter_le
  have earlier : ∀ id ok e, .persistResult id ok e ∈ s.host.inbox →
      ∃ n ≤ (s.beginSave now).2.client.counter, id = requestId n := fun id ok e hm => by
    obtain ⟨n, hn, hid⟩ := h.results id ok e hm
    exact ⟨n, by omega, hid⟩
  rcases beginSave_host s now with ⟨hhost, -⟩ | ⟨l, -, hnext, hhost⟩
  · exact ⟨tried.lasting h.lasting, hhost ▸ h.changes, hhost ▸ earlier⟩
  · have hinbox := congrArg DiskHost.inbox hhost
    rw [show (Transport.submit s.host _).2 = (s.host.submit _).2 from rfl,
      DiskHost.inbox_submit] at hinbox
    refine ⟨tried.lasting h.lasting, fun d hd => ?_, fun id ok e hm => ?_⟩
    · rw [hinbox] at hd
      rcases List.mem_append.mp hd with hd | hd
      · exact h.changes d hd
      · exact HostRequest.wellFormed_of_savable (DiskHost.savable_of_owed hd)
    · rw [hinbox] at hm
      rcases List.mem_append.mp hm with hm | hm
      · exact earlier id ok e hm
      · obtain ⟨-, hid, -⟩ := DiskHost.own_of_owed hm
        exact ⟨_, Nat.le_of_eq hnext.symm, hid⟩

theorem Orderly.take {m : HostMessage} {host : DiskHost} {outcome : Except SyncError Outcome}
    {c : Client} {now : Nat} (h : s.Orderly) (hreceive : s.host.receive = (.ok (some m), host))
    (hm : s.client.handle m now = (outcome, c)) : Orderly ⟨c, host⟩ := by
  have hcounter : c.counter = s.client.counter := by
    have := Client.counter_handle s.client m now
    rwa [hm] at this
  have handled := Client.handled_handle hm
  obtain ⟨-, hinbox | ⟨hinbox, d, rfl, hd⟩⟩ := DiskHost.receive_cases hreceive
  · have hchanges := h.changes
    have hresults := h.results
    simp only [hinbox, List.mem_cons] at hchanges hresults
    exact ⟨h.lasting.handled handled fun d hd => hchanges d (.inl hd.symm),
      fun d hd => hchanges d (.inr hd),
      fun id ok e hr => hcounter ▸ hresults id ok e (.inr hr)⟩
  · refine ⟨h.lasting.handled handled fun d' hd' => ?_, ?_, ?_⟩
    · cases hd'
      exact hd
    · simp [hinbox]
    · simp [hinbox]

theorem Run.orderly {start : Session DiskHost} (h : start.Orderly)
    (run : Run DiskHost.OthersWrite start log s) : s.Orderly := by
  induction run with
  | start => exact h
  | edit _ hedit ih =>
    exact ⟨⟨ih.lasting.store.edited (Store.edited_execute hedit), ih.lasting.inFlight⟩, ih.changes,
      ih.results⟩
  | host _ hmoves ih =>
    obtain ⟨tree, rfl⟩ := hmoves
    exact ⟨ih.lasting, ih.changes, ih.results⟩
  | load path now _ ih => exact ih.load path now
  | beginSave now _ ih => exact ih.beginSave now
  | take now _ hreceive hm ih => exact ih.take hreceive hm
  | poll _ hreceive hr ih =>
    cases DiskHost.receive_nothing hreceive hr
    exact ih

-- ---------------------------------------------------------------------------
-- A save that succeeds
-- ---------------------------------------------------------------------------

/-- Waiting changes no file, and succeeds only by a result that was delivered already. -/
theorem awaitResult_disk (s : Session DiskHost) (id : String) (now : Nat) :
    ((s.awaitResult id now).2.host.path = s.host.path ∧
      (s.awaitResult id now).2.host.tree = s.host.tree) ∧
    ((s.awaitResult id now).1 = .ok () → ∃ e, .persistResult id true e ∈ s.host.inbox) := by
  fun_induction Session.awaitResult s id now with
  | case1 s e host h | case2 s host h =>
    cases DiskHost.receive_nothing h (by simp)
    exact ⟨⟨rfl, rfl⟩, by simp⟩
  | case3 s m host h e client hm | case6 s m host h error client hm =>
    exact ⟨(DiskHost.receive_cases h).1, by simp⟩
  | case4 s m host h client hm =>
    obtain ⟨hfiles, hinbox⟩ := DiskHost.receive_cases h
    obtain ⟨e, rfl⟩ := Client.result_of_confirmed (Client.handled_handle hm)
    refine ⟨hfiles, fun _ => ⟨e, ?_⟩⟩
    rcases hinbox with hinbox | ⟨-, d, hd, -⟩
    · simp [hinbox]
    · cases hd
  | case5 s m host h other client hm ho ih | case7 s m host h other error client hm ho ih
  | case8 s m host h outcome client _ _ hm ih =>
    obtain ⟨⟨hpath, htree⟩, hinbox⟩ := DiskHost.receive_cases h
    obtain ⟨⟨hpath', htree'⟩, hresult⟩ := ih
    refine ⟨⟨hpath'.trans hpath, htree'.trans htree⟩, fun hok => ?_⟩
    obtain ⟨e, he⟩ := hresult hok
    rcases hinbox with hinbox | ⟨hinbox, -⟩
    · exact ⟨e, hinbox ▸ List.mem_cons_of_mem _ he⟩
    · simp [hinbox] at he

theorem Orderly.written {now : Nat} (h : s.Orderly) (hl : s.client.store.loaded = some l)
    (hsave : (s.save now).1 = .ok ()) :
    (s.save now).2.host.tree.readText (s.save now).2.host.path = .ok l.current.toJson.pretty := by
  have tried := tried_beginSave s now
  have hhost := beginSave_host s now
  unfold save at hsave ⊢
  rcases hbegun : s.beginSave now with ⟨e | id, begun⟩
  · simp [hbegun] at hsave
  · simp only [hbegun] at hsave hhost tried ⊢
    obtain ⟨-, hnone⟩ | ⟨l', hl', -, hhost⟩ := hhost
    · exact absurd rfl (hnone id)
    · cases hl.symm.trans hl'
      obtain ⟨⟨hpath, htree⟩, hresult⟩ := begun.awaitResult_disk id now
      rw [hpath, htree]
      obtain ⟨e, he⟩ := hresult hsave
      have hid : id = requestId (s.client.counter + 1) := by
        cases tried with
        | sent _ _ own => exact own
      subst hid
      let r : HostRequest := .persist (requestId (s.client.counter + 1)) l.current l.current.digest
      have hhost : begun.host = (s.host.submit r).2 := hhost
      rw [hhost, DiskHost.inbox_submit] at he
      -- An earlier result has an earlier number, so this one is the save's own.
      rcases List.mem_append.mp he with he | he
      · obtain ⟨n, hn, hsame⟩ := h.results _ _ _ he
        have := requestId_inj.mp hsame
        omega
      · obtain ⟨op, -, hpersist⟩ := DiskHost.own_of_owed he
        have hr : r.savable = .ok l.current :=
          HostRequest.savable_persist (h.lasting.store l hl).1.wellFormed
        rw [hhost, DiskHost.submit_persist op]
        exact DiskHost.readText_persist hr (hpersist rfl)

variable {tree : FileTree} {m : HostMessage} {host : DiskHost} {client : Client} {id : String}
  {now : Nat}

theorem awaitResult_confirmed (hr : s.host.receive = (.ok (some m), host))
    (hm : s.client.handle m now = (.ok (.saveConfirmed id), client)) :
    s.awaitResult id now = (.ok (), ⟨client, host⟩) := by
  rw [awaitResult]
  split
  · rename_i h
    cases hr.symm.trans h
  · rename_i h
    cases hr.symm.trans h
  · rename_i h
    cases hr.symm.trans h
    simp only [hm, if_true]

theorem awaitResult_suppressed {other : String} (hr : s.host.receive = (.ok (some m), host))
    (hm : s.client.handle m now = (.ok (.echoSuppressed other), client)) :
    s.awaitResult id now = awaitResult ⟨client, host⟩ id now := by
  rw [awaitResult]
  split
  · rename_i h
    cases hr.symm.trans h
  · rename_i h
    cases hr.symm.trans h
  · rename_i h
    cases hr.symm.trans h
    simp only [hm]

theorem awaitResult_failed {error : HostError} (hr : s.host.receive = (.ok (some m), host))
    (hm : s.client.handle m now = (.ok (.saveFailed id error), client)) :
    s.awaitResult id now = (.error (.persist error.display), ⟨client, host⟩) := by
  rw [awaitResult]
  split
  · rename_i h
    cases hr.symm.trans h
  · rename_i h
    cases hr.symm.trans h
  · rename_i h
    cases hr.symm.trans h
    simp only [hm, if_true]

theorem save_idle (hd : l.current.WellFormed) (timed : s.client.config.echoTimeout ≠ some 0)
    (hg : s.client.guard = .idle) (hinbox : s.host.inbox = [])
    (hl : s.client.store.loaded = some l) (now : Nat) :
    (s.save now).2.host.tree =
        (DiskHost.writeDocument s.host.path l.current s.host.tree).2 ∧
      (s.save now).1 = match (DiskHost.writeDocument s.host.path l.current s.host.tree).1 with
        | .ok () => .ok ()
        | .error e =>
          .error (.persist (HostError.storageFailure (TransportError.io e).message).display) := by
  let id := requestId (s.client.counter + 1)
  let save : InFlightSave := {
    requestId := id, digest := l.current.digest, document := l.current, armedAt := now }
  let armed : Client := { s.client with
    counter := s.client.counter + 1, guard := .awaitingEcho save }
  have hexpire : expireGuard s.client now = s.client := by
    simp [expireGuard, EchoGuard.expire, EchoGuard.waiting?, hg]
  have hbegin : ∀ host, s.host.submit (.persist id l.current l.current.digest) = (.ok (), host) →
      s.beginSave now = (.ok id, ⟨armed, host⟩) := by
    intro host hsubmit
    have hget : s.client.store.get = .ok l.current := Store.get_of_loaded hl
    simp only [beginSave, hexpire, hg, EchoGuard.inFlight?, hget, Client.nextRequest]
    rw [show Transport.submit s.host _ = _ from hsubmit]
    rfl
  unfold Session.save
  rcases hw : DiskHost.writeDocument s.host.path l.current s.host.tree with ⟨e | _, tree⟩
  · have failed := Client.handle_failed (c := armed)
      (some (.storageFailure (TransportError.io e).message)) now rfl
    have hsubmit := DiskHost.submit_unwritten id hd hw
    rw [hinbox] at hsubmit
    rw [hbegin _ hsubmit]
    dsimp only
    rw [awaitResult_failed (DiskHost.receive_cons rfl) failed]
    exact ⟨rfl, rfl⟩
  · have timely : ∀ timeout, armed.config.echoTimeout = some timeout →
        now - save.armedAt < timeout := by
      intro timeout ht
      have : timeout ≠ 0 := fun hzero => timed (ht.trans (congrArg some hzero))
      have : now - save.armedAt = 0 := Nat.sub_self now
      omega
    have handled := Client.handle_timely_echo l.current now (c := armed) timely rfl rfl
    have confirmed := Client.handle_persisted (l := l) now (c := armed.echoed save) rfl rfl rfl hl
    have hsubmit := DiskHost.submit_written id hd hw
    rw [hinbox] at hsubmit
    rw [hbegin _ hsubmit]
    dsimp only
    rw [awaitResult_suppressed (DiskHost.receive_cons rfl) handled,
      awaitResult_confirmed (DiskHost.receive_cons rfl) confirmed]
    exact ⟨rfl, rfl⟩

theorem save_ok (h : s.Orderly) (ht : s.client.config.echoTimeout = none)
    (hg : s.client.guard = .idle) (hinbox : s.host.inbox = [])
    (hl : s.client.store.loaded = some l)
    (hw : DiskHost.writeDocument s.host.path l.current s.host.tree = (.ok (), tree)) (now : Nat) :
    (s.save now).1 = .ok () := by
  have timed : s.client.config.echoTimeout ≠ some 0 := by
    rw [ht]
    nofun
  obtain ⟨-, hsave⟩ := save_idle (h.lasting.store l hl).1.wellFormed timed hg hinbox hl now
  rwa [hw] at hsave

end Session

end ShellSettings
