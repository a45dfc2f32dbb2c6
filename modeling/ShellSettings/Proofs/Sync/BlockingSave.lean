import ShellSettings.Proofs.Store.Lasting
import ShellSettings.Proofs.Store.Revisions
import ShellSettings.Proofs.Sync.OnlyClient

/-!
# Blocking saves

A save that waits for its result ends in one of three ways, whatever waits in the queue of a host
with one client and however the host is set: accepted, refused, or given up without a result
(`Session.Served.save_cases`). What is taken in on the way may replace the document, but not if it
only answers earlier saves: then a change that is not suppressed is the save's own echo.
-/

namespace ShellSettings

-- ---------------------------------------------------------------------------
-- What the host does with a save
-- ---------------------------------------------------------------------------

namespace MemoryHost

variable {h : MemoryHost} {id : String} {d : Document}

theorem inbox_pushAll_paused (ms : List HostMessage) (hp : h.paused = true) :
    (ms.foldl MemoryHost.push h).inbox = h.inbox := by
  induction ms generalizing h with
  | nil => rfl
  | cons m ms ih =>
    have hm : h.push m = { h with held := h.held ++ [m] } := by simp [MemoryHost.push, hp]
    rw [List.foldl_cons, hm]
    exact ih hp

/-- A paused host keeps to itself what comes of a save. Otherwise a failure that was arranged comes
at once, or the save is accepted and the answers come at once. -/
theorem persist_cases {r : HostRequest} (hr : r.savable = .ok d) :
    (h.paused = true ∧ (h.persist r).inbox = h.inbox) ∨
    (∃ e rest, h.paused = false ∧ h.persistFailures = e :: rest ∧
      (h.persist r).inbox = h.inbox ++ [.persistFailed r.id e] ∧
      (h.persist r).document = h.document) ∨
    (h.paused = false ∧ h.persistFailures = [] ∧
      (h.persist r).inbox = h.inbox ++ h.answers r.id d ∧
      (h.persist r).persisted = h.persisted ++ [d]) := by
  cases hp : h.paused with
  | true =>
    refine .inl ⟨rfl, ?_⟩
    unfold persist
    split
    · simp [MemoryHost.push, hp]
    · simp [MemoryHost.push, hp]
    · rename_i d' _ _
      exact inbox_pushAll_paused
        (h := { h with document := d', persisted := h.persisted ++ [d'] }) _ hp
  | false =>
    cases hf : h.persistFailures with
    | nil =>
      rw [persist_eq hr hp hf]
      exact .inr (.inr ⟨rfl, rfl, rfl, rfl⟩)
    | cons e rest =>
      refine .inr (.inl ⟨e, rest, rfl, rfl, ?_⟩)
      simp [persist, hr, hf, MemoryHost.push, hp]

theorem answers_confirmed (id : String) (d : Document) (hr : h.dropResults = false) :
    ∃ front back, h.answers id d = front ++ .persisted id :: back ∧
      (front = [] ∨ front = [.changed d]) ∧ ∀ m ∈ front, ∀ id, ¬ m.IsResultOf id := by
  have notResult : ∀ m ∈ [HostMessage.changed d], ∀ id, ¬ m.IsResultOf id := by
    rintro m hm id ⟨ok, error, rfl⟩
    simp at hm
  unfold answers
  cases h.dropEchoes <;> cases h.resultFirst
  all_goals simp only [hr]
  · exact ⟨[.changed d], [], rfl, .inr rfl, notResult⟩
  · exact ⟨[], [.changed d], rfl, .inl rfl, List.forall_mem_nil _⟩
  · exact ⟨[], [], rfl, .inl rfl, List.forall_mem_nil _⟩
  · exact ⟨[], [], rfl, .inl rfl, List.forall_mem_nil _⟩

theorem answers_unconfirmed (hr : h.dropResults = true) :
    ∀ m ∈ h.answers id d, ∀ id, ¬ m.IsResultOf id := by
  rintro m hm id ⟨ok, error, rfl⟩
  unfold answers at hm
  cases h.dropEchoes <;> cases h.resultFirst <;> simp [hr] at hm

end MemoryHost

-- ---------------------------------------------------------------------------
-- What comes before the result
-- ---------------------------------------------------------------------------

namespace Client

variable {c : Client} {save : InFlightSave} {l : Loaded} {old new : List HostMessage}

/-- The document that is being saved is still the current one. If a change has come after the echo,
it is the snapshot already. -/
structure Undisturbed (c : Client) (save : InFlightSave) (l : Loaded) (d : Document) : Prop where
  guard : c.guard = .awaitingEcho save
  loaded : c.store.loaded = some l
  saving : save.document = d
  current : l.current = d
  superseded : save.superseded = true → l.snapshot = d ∧ l.repaired = false

theorem handle_second_change (d : Document) (now : Nat) (untimed : c.config.echoTimeout = none)
    (hg : c.guard = .awaitingEcho save) (seen : save.echoSeen = true) :
    (c.handle (.changed d) now).2.guard = .awaitingEcho { save with superseded := true } ∧
      (c.handle (.changed d) now).2.store = (c.store.install d).1 := by
  have handled : c.Handled now (.changed d) (c.handle (.changed d) now).1
      (c.handle (.changed d) now).2 := handled_handle rfl
  generalize (c.handle (.changed d) now).1 = outcome, (c.handle (.changed d) now).2 = c' at *
  cases handled with
  | suppressed suppresses =>
    rw [hg] at suppresses
    generalize c'.guard = g' at suppresses
    cases suppresses with
    | first fresh => simp [seen] at fresh
  | replaced passes store =>
    rw [hg] at passes
    refine ⟨?_, store⟩
    generalize c'.guard = g' at passes
    cases passes with
    | second => rfl
    | stale timed => exact absurd untimed timed

/-- Where no more than an earlier echo and the save's own come before its result, the document stays
the current one: a second change is the document that is saved. -/
theorem Undisturbed.takeAll {d : Document} (h : c.Undisturbed save l d) (now : Nat)
    (untimed : c.config.echoTimeout = none)
    (fresh : save.echoSeen = false ∧ save.superseded = false) (intact : d.Intact c.store.catalog)
    (hold : Echoing old) (hnew : new = [] ∨ new = [.changed d]) :
    ∃ save' l', (c.takeAll (old ++ new) now).Undisturbed save' l' d := by
  have echoed : ∀ e, (c.handle (.changed e) now).2 = c.echoed save :=
    fun e => congrArg Prod.snd (handle_echo e now untimed h.guard fresh.1)
  have once : (c.echoed save).Undisturbed { save with echoSeen := true } l d :=
    ⟨rfl, h.loaded, h.saving, h.current, h.superseded⟩
  cases hold with
  | nothing =>
    rcases hnew with rfl | rfl
    · exact ⟨save, l, h⟩
    · simp only [Client.takeAll, List.nil_append, List.foldl_cons, List.foldl_nil, echoed]
      exact ⟨_, _, once⟩
  | echo e =>
    rcases hnew with rfl | rfl
    · simp only [Client.takeAll, List.append_nil, List.foldl_cons, List.foldl_nil, echoed]
      exact ⟨_, _, once⟩
    · -- The earlier echo is taken for the save's, and the save's own is a change that replaces the
      -- document by itself.
      obtain ⟨hguard, hstore⟩ := handle_second_change (c := c.echoed save) d now untimed rfl rfl
      obtain ⟨⟨revision, hloaded⟩, -⟩ :=
        Store.install_of_intact (s := (c.echoed save).store) intact
      simp only [Client.takeAll, List.singleton_append, List.foldl_cons, List.foldl_nil, echoed]
      exact ⟨{ save with echoSeen := true, superseded := true }, ⟨d, d, revision, false⟩,
        hguard, hstore ▸ hloaded, h.saving, rfl, fun _ => ⟨rfl, rfl⟩⟩

end Client

-- ---------------------------------------------------------------------------
-- Saving
-- ---------------------------------------------------------------------------

namespace Session

variable {config : SyncConfig} {queue : List QueuedMessage} {delivered : List HostMessage}
  {s : Session MemoryHost} {origin : Store} {taken : List Document} {l : Loaded}

theorem handedOver_cases {d : Document} (now : Nat) (hd : d.WellFormed) :
    (s.host.paused = true ∧ (s.handedOver d now).host.inbox = s.host.inbox) ∨
    (∃ e rest, s.host.paused = false ∧ s.host.persistFailures = e :: rest ∧
      (s.handedOver d now).host.inbox =
        s.host.inbox ++ [.persistFailed (requestId (s.client.counter + 1)) e] ∧
      (s.handedOver d now).host.document = s.host.document) ∨
    (s.host.paused = false ∧ s.host.persistFailures = [] ∧
      (s.handedOver d now).host.inbox =
        s.host.inbox ++ s.host.answers (requestId (s.client.counter + 1)) d ∧
      (s.handedOver d now).host.persisted = s.host.persisted ++ [d]) :=
  MemoryHost.persist_cases
    (h := { s.host with requests := s.host.requests ++
      [HostRequest.persist (requestId (s.client.counter + 1)) d d.digest] })
    (HostRequest.savable_persist hd)

section

variable {id : String} {save : InFlightSave} {front rest : List HostMessage}

theorem awaitResult_refused {e : HostError} (now : Nat)
    (untimed : s.client.config.echoTimeout = none)
    (hg : s.client.guard = .awaitingEcho save) (own : save.requestId = id)
    (hl : s.client.store.loaded = some l) (others : ∀ m ∈ front, ¬ m.IsResultOf id)
    (hin : s.host.inbox = front ++ .persistFailed id e :: rest) :
    (s.awaitResult id now).1 = .error (.persist e.display) ∧
      (s.awaitResult id now).2.host = { s.host with inbox := rest } := by
  subst own
  obtain ⟨⟨save', hg', own'⟩, -⟩ := Client.takeAll_awaiting now untimed hg others hl
  rw [awaitResult_append untimed hg rfl others hin, awaitResult_failed_own hg' own' rfl]
  exact ⟨rfl, rfl⟩

theorem awaitResult_accepted (now : Nat) (untimed : s.client.config.echoTimeout = none)
    (hg : s.client.guard = .awaitingEcho save) (own : save.requestId = id)
    (hl : s.client.store.loaded = some l) (others : ∀ m ∈ front, ¬ m.IsResultOf id)
    (hin : s.host.inbox = front ++ .persisted id :: rest) :
    (s.awaitResult id now).1 = .ok () ∧
      (s.awaitResult id now).2.host = { s.host with inbox := rest } ∧
      (s.awaitResult id now).2.client.guard.inFlight? = none ∧
      ∀ save' l' d, (s.client.takeAll front now).Undisturbed save' l' d →
        (s.awaitResult id now).2.client.store.get = .ok d ∧
          (s.awaitResult id now).2.client.store.needsSave = false := by
  subst own
  obtain ⟨⟨save', hg', own'⟩, ⟨l', hl'⟩, -⟩ :=
    Client.takeAll_awaiting now untimed hg others hl
  rw [awaitResult_append untimed hg rfl others hin]
  obtain ⟨client, heq, hfree, hstore⟩ := awaitResult_persisted_own
    (s := ⟨s.client.takeAll front now, { s.host with inbox := .persisted save.requestId :: rest }⟩)
    now hg' own' hl' rfl
  rw [heq]
  refine ⟨rfl, rfl, hfree, fun save'' l'' d undisturbed => ?_⟩
  cases hg'.symm.trans undisturbed.guard
  cases hl'.symm.trans undisturbed.loaded
  split at hstore
  · -- Another change has replaced the document, and a confirmation leaves what that has brought.
    rename_i hsuperseded
    obtain ⟨hsnapshot, hrepaired⟩ := undisturbed.superseded hsuperseded
    rw [hstore]
    simp [Store.get, Store.needsSave, Store.isDirty, Loaded.isDirty, hl', undisturbed.current,
      hsnapshot, hrepaired, Document.same_self]
  · rw [hstore]
    simp [Store.get, Store.needsSave, Store.isDirty, Loaded.isDirty, undisturbed.current,
      undisturbed.saving, Document.same_self]

end

/-- A save comes to one of three things, and the mode of the host tells which. It succeeds, the host
has accepted the document that was current, and it is in flight no longer; if only answers to
earlier saves were waiting, the document is still the current one and there is nothing to save. Or
the host has refused the save and has the document that it had. Or no result has come, and the save
is in flight still. -/
theorem Served.save_cases (served : Served config queue delivered s)
    (untimed : config.echoTimeout = none) (unloaded : origin.loaded = none)
    (grown : Store.Grown origin taken s.client.store)
    (hl : s.client.store.loaded = some l)
    (integral : l.current.dangling s.client.store.catalog = [])
    (hfree : s.client.guard.inFlight? = none) (now : Nat) :
    ((s.save now).1 = .ok () ∧
      (s.host.paused = false ∧ s.host.persistFailures = [] ∧ s.host.dropResults = false) ∧
      (s.save now).2.host.persisted = s.host.persisted ++ [l.current] ∧
      (s.save now).2.client.guard.inFlight? = none ∧
      ((∀ q ∈ queue, q.origin = .save) →
        (s.save now).2.client.store.get = .ok l.current ∧
        (s.save now).2.client.store.needsSave = false)) ∨
    (∃ e rest, (s.save now).1 = .error (.persist e.display) ∧
      (s.host.paused = false ∧ s.host.persistFailures = e :: rest) ∧
      (s.save now).2.host.document = s.host.document) ∨
    ((s.save now).1 =
        .error (.persistTimedOut (requestId (s.client.counter + 1)) config.persistTimeout) ∧
      (s.host.paused = true ∨ s.host.persistFailures = [] ∧ s.host.dropResults = true) ∧
      ∃ save, (s.save now).2.client.guard = .awaitingEcho save ∧
        save.requestId = requestId (s.client.counter + 1)) := by
  have attended := served.attended untimed
  have never := (congrArg SyncConfig.echoTimeout attended.config).trans untimed
  have lasting : l.current.Lasting := ((grown.lasting unloaded).1 l hl).1
  have intact : l.current.Intact s.client.store.catalog := ⟨lasting.intact.normalized, integral⟩
  have hsave : s.save now =
      (s.handedOver l.current now).awaitResult (requestId (s.client.counter + 1)) now := by
    rw [Session.save, beginSave_armed now never hfree hl]
  have old : ∀ m ∈ s.host.inbox, ∀ id, ¬ m.IsResultOf id :=
    fun m hm => attended.no_result hfree (List.mem_append_left _ hm)
  rw [hsave, ← attended.config]
  have own : (nextSave s.client l.current now).requestId = requestId (s.client.counter + 1) := rfl
  rcases handedOver_cases (s := s) now lasting.wellFormed with
    ⟨hp, hin⟩ | ⟨e, rest, hp, hf, hin, hdocument⟩ | ⟨hp, hf, hin, hpersisted⟩
  · obtain ⟨hresult, hstill⟩ := awaitResult_lost (s := s.handedOver l.current now) now
      never rfl own hl (hin ▸ fun m hm => old m hm _)
    exact .inr (.inr ⟨hresult, .inl hp, hstill⟩)
  · obtain ⟨hresult, hhost⟩ := awaitResult_refused (s := s.handedOver l.current now) now
      never rfl own hl (fun m hm => old m hm _) hin
    refine .inr (.inl ⟨e, rest, hresult, ⟨hp, hf⟩, ?_⟩)
    rw [hhost]
    exact hdocument
  · cases hr : s.host.dropResults with
    | true =>
      have lost : ∀ m ∈ (s.handedOver l.current now).host.inbox,
          ¬ m.IsResultOf (requestId (s.client.counter + 1)) := by
        rw [hin]
        exact List.forall_mem_append.mpr
          ⟨fun m hm => old m hm _, fun m hm => MemoryHost.answers_unconfirmed hr m hm _⟩
      obtain ⟨hresult, hstill⟩ := awaitResult_lost (s := s.handedOver l.current now) now
        never rfl own hl lost
      exact .inr (.inr ⟨hresult, .inr ⟨hf, rfl⟩, hstill⟩)
    | false =>
      obtain ⟨front, back, hanswers, hfront, notResult⟩ := MemoryHost.answers_confirmed
        (requestId (s.client.counter + 1)) l.current hr
      rw [hanswers, ← List.append_assoc] at hin
      obtain ⟨hresult, hhost, hfree', hkept⟩ := awaitResult_accepted
        (s := s.handedOver l.current now) now never rfl own hl
        (List.forall_mem_append.mpr ⟨fun m hm => old m hm _, fun m hm => notResult m hm _⟩) hin
      refine .inl ⟨hresult, ⟨hp, hf, rfl⟩, ?_, hfree', fun answers => ?_⟩
      · rw [hhost]
        exact hpersisted
      · have begun : (s.handedOver l.current now).client.Undisturbed
            (nextSave s.client l.current now) l l.current := ⟨rfl, hl, rfl, rfl, by rintro ⟨⟩⟩
        have echoing : Echoing s.host.inbox :=
          attended.answersIn_eq_inbox hp answers ▸ attended.free hfree
        obtain ⟨save', l', undisturbed⟩ :=
          begun.takeAll now never ⟨rfl, rfl⟩ intact echoing hfront
        exact hkept save' l' _ undisturbed

-- ---------------------------------------------------------------------------
-- A trailing echo
-- ---------------------------------------------------------------------------

theorem served_trailing_echo (config : SyncConfig) (store : Store) (d : Document)
    (untimed : config.echoTimeout = none) (hl : store.loaded = some l)
    (hd : l.current.WellFormed) :
    ∃ delivered client host,
      Served config [⟨.save, .changed l.current⟩] delivered ⟨client, host⟩ ∧
      client.guard.inFlight? = none ∧
      host.paused = false ∧ host.persistFailures = [] ∧ host.dropResults = false := by
  let s : Session MemoryHost := ⟨{ store, config }, { document := d, resultFirst := true }⟩
  let id := requestId (s.client.counter + 1)
  have served : Served config [] [] s := (Served.start store d).host (.resultFirst true)
  have hhost : (s.handedOver l.current 0).host = { s.host with
      document := l.current, persisted := [l.current]
      requests := [HostRequest.persist id l.current l.current.digest]
      inbox := [.persisted id, .changed l.current] } :=
    congrArg Prod.snd (MemoryHost.submit_persist_eq hd rfl rfl)
  have begun := served.beginSave 0
  have hms : (s.handedOver l.current 0).host.undelivered =
      s.host.undelivered ++ [.persisted id, .changed l.current] := by
    rw [hhost]
    rfl
  rw [beginSave_armed 0 untimed rfl hl, MemoryHost.arrived_eq hms] at begun
  have hin : (s.handedOver l.current 0).host.inbox = [.persisted id, .changed l.current] := by
    rw [hhost]
  have taken := begun.take 0 hin
  have hhandle : (s.handedOver l.current 0).client.handle (.persisted id) 0 = (_, _) :=
    Client.handle_persisted 0 rfl rfl rfl hl
  rw [hhandle, hhost] at taken
  exact ⟨_, _, _, taken, rfl, rfl, rfl, rfl⟩

/-- An echo of a first save waits when the second is begun, and the second save's own echo is not
taken for one. -/
theorem save_cases_trailing_echo : ∃ queue delivered s l,
    Served ⟨none, 10000⟩ queue delivered s ∧
    queue.map (·.origin) = [.save] ∧ s.client.store.loaded = some l ∧
    (s.save 0).1 = .ok () ∧ (s.save 0).2.host.persisted = s.host.persisted ++ [l.current] ∧
    (s.save 0).2.client.store.get = .ok l.current ∧
    (s.save 0).2.client.store.needsSave = false := by
  let blank : Store := { ids := ⟨fun _ => "new", 0⟩ }
  let first : Store := (blank.execute (.load {})).2
  let second : Store := (first.execute (.createCollection "Fjords" [])).2
  have decoded : Document.ofJson? (.obj []) = .ok {} := rfl
  have loaded : Store.Grown blank [] first := .execute _ .start (.inr ⟨_, decoded⟩) trivial
  have edited : Store.Grown blank [] second := .execute _ loaded trivial trivial
  obtain ⟨delivered, client, host, served, hfree, hp, hf, hr⟩ :=
    served_trailing_echo ⟨none, 10000⟩ first {} rfl rfl (Document.wellFormed_of_read decoded)
  -- From now on the echo comes first.
  have begins := (served.host (.resultFirst false)).store second
  have silent : host.arrived (host.execute (.resultFirst false)) .elsewhere = [] :=
    MemoryHost.arrived_eq (List.append_nil _).symm
  dsimp only at begins
  rw [silent, List.append_nil] at begins
  rcases begins.save_cases rfl rfl edited rfl rfl hfree 0 with
    ⟨hok, -, hpersisted, -, hkept⟩ | ⟨e, rest, -, ⟨-, hf'⟩, -⟩ | ⟨-, hp' | ⟨-, hr'⟩, -⟩
  · exact ⟨_, _, _, _, begins, rfl, rfl, hok, hpersisted, hkept (by simp)⟩
  · cases hf.symm.trans hf'
  · cases hp.symm.trans hp'
  · cases hr.symm.trans hr'

end Session

end ShellSettings
