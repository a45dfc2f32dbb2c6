import ShellSettings.Proofs.Sync.AwaitedResult
import ShellSettings.Proofs.Sync.Outstanding

/-!
# A host with one client

Of the messages that a host in memory has for its only client, some answer the client's saves and
the others come from elsewhere (`Session.Served`). While no save is in flight no result waits, and
of the answers at most one echo does; while one is, its result is the only one that waits, if it
does (`Session.Served.attended`).
-/

namespace ShellSettings

-- ---------------------------------------------------------------------------
-- The queue
-- ---------------------------------------------------------------------------

inductive Origin where
  -- The client, with a save.
  | save
  -- Another writer, or the catalogs.
  | elsewhere
deriving DecidableEq

structure QueuedMessage where
  origin : Origin
  message : HostMessage

namespace MemoryHost

variable {h h' : MemoryHost} {ms : List HostMessage}

/-- What waits in the one host and not yet in the other. -/
def arrived (h h' : MemoryHost) (origin : Origin) : List QueuedMessage :=
  (h'.undelivered.drop h.undelivered.length).map fun m => ⟨origin, m⟩

theorem arrived_eq {origin : Origin} (hms : h'.undelivered = h.undelivered ++ ms) :
    h.arrived h' origin = ms.map fun m => ⟨origin, m⟩ := by
  rw [arrived, hms, List.drop_left]

end MemoryHost

namespace Session

/-- The sessions of a host in memory that nobody else asks anything, each with the messages that
wait and those that were delivered. What was delivered may be taken in at any time, again or never,
and the store may be another one at any time. -/
inductive Served (config : SyncConfig) :
    List QueuedMessage → List HostMessage → Session MemoryHost → Prop
  | start (store : Store) (document : Document) :
    Served config [] [] ⟨{ store, config }, { document }⟩
  | store {queue delivered s} (store : Store) (served : Served config queue delivered s) :
    Served config queue delivered { s with client := { s.client with store } }
  | host {queue delivered s} (c : HostCommand) (served : Served config queue delivered s) :
    Served config (queue ++ s.host.arrived (s.host.execute c) .elsewhere) delivered
      { s with host := s.host.execute c }
  | load {queue delivered s} (path : Option String) (now : Nat)
    (served : Served config queue delivered s) : Served config queue delivered (s.load path now).2
  | beginSave {queue delivered s} (now : Nat) (served : Served config queue delivered s) :
    Served config (queue ++ s.host.arrived (s.beginSave now).2.host .save) delivered
      (s.beginSave now).2
  | receive {queue delivered s m rest} (served : Served config queue delivered s)
    (h : s.host.inbox = m :: rest) :
    Served config queue.tail (m :: delivered) { s with host := { s.host with inbox := rest } }
  | handle {queue delivered s m} (now : Nat) (served : Served config queue delivered s)
    (h : m ∈ delivered) :
    Served config queue delivered { s with client := (s.client.handle m now).2 }

variable {config : SyncConfig} {queue : List QueuedMessage} {delivered : List HostMessage}
  {s : Session MemoryHost}

theorem Served.take {m : HostMessage} {rest : List HostMessage} (now : Nat)
    (served : Served config queue delivered s) (hin : s.host.inbox = m :: rest) :
    Served config queue.tail (m :: delivered)
      ⟨(s.client.handle m now).2, { s.host with inbox := rest }⟩ :=
  (served.receive hin).handle now List.mem_cons_self

theorem Served.take_of_receive {m : HostMessage} {host : MemoryHost} {client : Client} {now : Nat}
    {outcome : Except SyncError Outcome} (served : Served config queue delivered s)
    (h : Transport.receive s.host = (.ok (some m), host))
    (hm : s.client.handle m now = (outcome, client)) :
    Served config queue.tail (m :: delivered) ⟨client, host⟩ := by
  obtain ⟨rest, hin, rfl⟩ := MemoryHost.receive_eq_message h
  have taken := served.take now hin
  rw [hm] at taken
  exact taken

theorem Served.awaitResult (id : String) (now : Nat) (served : Served config queue delivered s) :
    ∃ queue delivered, Served config queue delivered (s.awaitResult id now).2 := by
  fun_induction Session.awaitResult s id now generalizing queue delivered with
  | case1 s e host h =>
    cases MemoryHost.receive_eq_nothing h (by simp)
    exact ⟨queue, delivered, served⟩
  | case2 s host h =>
    cases MemoryHost.receive_eq_nothing h (by simp)
    exact ⟨queue, delivered, served⟩
  | case3 s m host h e client hm => exact ⟨_, _, served.take_of_receive h hm⟩
  | case4 s m host h client hm => exact ⟨_, _, served.take_of_receive h hm⟩
  | case5 s m host h other client hm ho ih => exact ih (served.take_of_receive h hm)
  | case6 s m host h error client hm => exact ⟨_, _, served.take_of_receive h hm⟩
  | case7 s m host h other error client hm ho ih => exact ih (served.take_of_receive h hm)
  | case8 s m host h outcome client _ _ hm ih => exact ih (served.take_of_receive h hm)

theorem Served.save (now : Nat) (served : Served config queue delivered s) :
    ∃ queue delivered, Served config queue delivered (s.save now).2 := by
  have begun := served.beginSave now
  unfold Session.save
  split
  · rename_i e s' h
    rw [h] at begun
    exact ⟨_, _, begun⟩
  · rename_i id s' h
    rw [h] at begun
    exact begun.awaitResult id now

end Session

-- ---------------------------------------------------------------------------
-- Answers
-- ---------------------------------------------------------------------------

/-- What may wait of the answers to saves while none is in flight: the echo of the last. -/
inductive Echoing : List HostMessage → Prop
  | nothing : Echoing []
  | echo (d : Document) : Echoing [.changed d]

/-- What may wait of them while a save is in flight. Its result may be missing. -/
inductive Answering (id : String) : List HostMessage → Prop
  | missing : Answering id []
  | change {d rest} (h : Answering id rest) : Answering id (.changed d :: rest)
  | result {ok error rest} (h : Echoing rest) : Answering id (.persistResult id ok error :: rest)

theorem Echoing.tail {m : HostMessage} {rest : List HostMessage} (h : Echoing (m :: rest)) :
    Echoing rest := by
  cases h with
  | echo d => exact .nothing

theorem Echoing.append {id : String} {old ms : List HostMessage} (ho : Echoing old)
    (h : Answering id ms) : Answering id (old ++ ms) := by
  cases ho with
  | nothing => exact h
  | echo d => exact .change h

theorem Echoing.answering {ms : List HostMessage} (id : String) (h : Echoing ms) :
    Answering id ms := by
  simpa using h.append (Answering.missing : Answering id [])

theorem Answering.tail {id : String} {m : HostMessage} {rest : List HostMessage}
    (h : Answering id (m :: rest)) : Answering id rest := by
  cases h with
  | change h => exact h
  | result h => exact h.answering id

theorem Echoing.no_result {ms : List HostMessage} {m : HostMessage} {id : String} (h : Echoing ms)
    (hm : m ∈ ms) : ¬ m.IsResultOf id := by
  rintro ⟨ok, error, rfl⟩
  cases h with
  | nothing => cases hm
  | echo d => simp at hm

theorem Answering.result_eq {id other : String} {ms : List HostMessage} {m : HostMessage}
    (h : Answering id ms) (hm : m ∈ ms) (result : m.IsResultOf other) : other = id := by
  induction h with
  | missing => cases hm
  | change _ ih =>
    rcases List.mem_cons.mp hm with rfl | hm
    · obtain ⟨ok, error, hchanged⟩ := result
      cases hchanged
    · exact ih hm
  | result echoing =>
    rcases List.mem_cons.mp hm with rfl | hm
    · obtain ⟨ok, error, hresult⟩ := result
      cases hresult
      rfl
    · exact absurd result (echoing.no_result hm)

theorem Answering.echoing {id : String} {m : HostMessage} {rest : List HostMessage}
    (h : Answering id (m :: rest)) (own : m.IsResultOf id) : Echoing rest := by
  obtain ⟨ok, error, rfl⟩ := own
  cases h with
  | result h => exact h

namespace MemoryHost

variable {h h' : MemoryHost}

theorem answering_answers (h : MemoryHost) (id : String) (d : Document) :
    Answering id (h.answers id d) := by
  unfold answers
  cases h.dropEchoes <;> cases h.dropResults <;> cases h.resultFirst
  all_goals first
    | exact .missing
    | exact .change .missing
    | exact .result .nothing
    | exact .change (.result .nothing)
    | exact .result (.echo d)

theorem undelivered_pushAll (ms : List HostMessage) (ho : h.Ordered) :
    (ms.foldl MemoryHost.push h).undelivered = h.undelivered ++ ms := by
  induction ms generalizing h with
  | nil => simp
  | cons m ms ih =>
    rw [List.foldl_cons, ih (ho.push m), undelivered_push m ho, List.append_assoc,
      List.singleton_append]

theorem undelivered_execute (c : HostCommand) (ho : h.Ordered) :
    ∃ ms, (h.execute c).undelivered = h.undelivered ++ ms ∧
      ∀ m ∈ ms, ∀ id, ¬ m.IsResultOf id := by
  cases c with
  | external d =>
    refine ⟨[.changed d], undelivered_push (h := { h with document := d }) (.changed d) ho, ?_⟩
    rintro m hm id ⟨ok, error, rfl⟩
    simp at hm
  | catalog feed =>
    refine ⟨[.catalogUpdated feed], undelivered_push (.catalogUpdated feed) ho, ?_⟩
    rintro m hm id ⟨ok, error, rfl⟩
    simp at hm
  | resume =>
    refine ⟨[], ?_, List.forall_mem_nil _⟩
    simp [execute, MemoryHost.resume, undelivered]
  | pause | resultFirst | dropEchoes | dropResults | failPersist | failLoad =>
    refine ⟨[], ?_, List.forall_mem_nil _⟩
    rw [List.append_nil]
    rfl

theorem undelivered_submit (id digest : String) (d : Document) (ho : h.Ordered) :
    ∃ ms, (Transport.submit h (.persist id d digest)).2.undelivered = h.undelivered ++ ms ∧
      Answering id ms := by
  let asked := { h with requests := h.requests ++ [HostRequest.persist id d digest] }
  change ∃ ms, (asked.persist (.persist id d digest)).undelivered = asked.undelivered ++ ms ∧ _
  unfold MemoryHost.persist
  split
  · exact ⟨_, undelivered_push (h := asked) _ ho, .result .nothing⟩
  · rename_i rest _ _
    exact ⟨_, undelivered_push (h := { asked with persistFailures := rest }) _ ho,
      .result .nothing⟩
  · rename_i d' _ _
    exact ⟨_, undelivered_pushAll
      (h := { asked with document := d', persisted := asked.persisted ++ [d'] }) _ ho,
      answering_answers asked id d'⟩

end MemoryHost

-- ---------------------------------------------------------------------------
-- What a host with one client has for it
-- ---------------------------------------------------------------------------

def answersIn (queue : List QueuedMessage) : List HostMessage :=
  (queue.filter (·.origin = .save)).map (·.message)

theorem answersIn_cons (q : QueuedMessage) (queue : List QueuedMessage) :
    answersIn (q :: queue) =
      if q.origin = .save then q.message :: answersIn queue else answersIn queue := by
  cases h : q.origin <;> simp [answersIn, h]

theorem answersIn_append (queue more : List QueuedMessage) :
    answersIn (queue ++ more) = answersIn queue ++ answersIn more := by
  simp [answersIn]

theorem answersIn_saved (ms : List HostMessage) :
    answersIn (ms.map fun m => ⟨.save, m⟩) = ms := by
  induction ms with
  | nil => rfl
  | cons m ms ih => exact congrArg (m :: ·) ih

theorem answersIn_elsewhere (ms : List HostMessage) :
    answersIn (ms.map fun m => ⟨.elsewhere, m⟩) = [] := by
  simp [answersIn]

namespace Session

/-- What holds of a session with a host that it is the only client of. -/
structure Attended (config : SyncConfig) (queue : List QueuedMessage)
    (delivered : List HostMessage) (s : Session MemoryHost) : Prop where
  config : s.client.config = config
  ordered : s.host.Ordered
  undelivered : queue.map (·.message) = s.host.undelivered
  elsewhere : ∀ q ∈ queue, q.origin = .elsewhere → ∀ id, ¬ q.message.IsResultOf id
  free : s.client.guard.inFlight? = none → Echoing (answersIn queue)
  saving : ∀ save, s.client.guard = .awaitingEcho save →
    Answering save.requestId (answersIn queue)
  -- A result that was delivered may not have been taken in yet, but no other one comes.
  resulted : ∀ save, s.client.guard = .awaitingEcho save →
    (∃ m ∈ delivered, m.IsResultOf save.requestId) → Echoing (answersIn queue)
  numbered : ∀ save, s.client.guard = .awaitingEcho save →
    ∃ n ≤ s.client.counter, save.requestId = requestId n
  -- No result comes before its save.
  unnumbered : ∀ m ∈ delivered, ∀ n, s.client.counter < n → ¬ m.IsResultOf (requestId n)

variable {config : SyncConfig} {queue : List QueuedMessage} {delivered : List HostMessage}
  {s : Session MemoryHost}

def nextSave (c : Client) (d : Document) (now : Nat) : InFlightSave where
  requestId := requestId (c.counter + 1)
  digest := d.digest
  document := d
  armedAt := now

def handedOver (s : Session MemoryHost) (d : Document) (now : Nat) : Session MemoryHost where
  client := { s.client with
    counter := s.client.counter + 1, guard := .awaitingEcho (nextSave s.client d now) }
  host := (Transport.submit s.host (.persist (requestId (s.client.counter + 1)) d d.digest)).2

theorem beginSave_armed {l : Loaded} (now : Nat) (untimed : s.client.config.echoTimeout = none)
    (hfree : s.client.guard.inFlight? = none) (hl : s.client.store.loaded = some l) :
    s.beginSave now = (.ok (requestId (s.client.counter + 1)), s.handedOver l.current now) := by
  have hsubmit : Transport.submit s.host
      (.persist (requestId (s.client.counter + 1)) l.current l.current.digest) = (.ok (), _) := rfl
  simp only [beginSave, expireGuard_untimed s.client now untimed, hfree, Store.get, hl,
    Client.nextRequest, hsubmit, EchoGuard.arm, handedOver, nextSave]

theorem beginSave_cases (now : Nat) (untimed : s.client.config.echoTimeout = none) :
    (∃ l, s.client.guard.inFlight? = none ∧ s.client.store.loaded = some l ∧
      s.beginSave now = (.ok (requestId (s.client.counter + 1)), s.handedOver l.current now)) ∨
    ∃ e, s.beginSave now = (.error e, s) := by
  have hexpire := expireGuard_untimed s.client now untimed
  cases hfree : s.client.guard.inFlight? with
  | some save =>
    exact .inr ⟨.saveInFlight save.requestId, by simp only [beginSave, hexpire, hfree]⟩
  | none =>
    cases hl : s.client.store.loaded with
    | some l => exact .inl ⟨l, rfl, rfl, beginSave_armed now untimed hfree hl⟩
    | none =>
      exact .inr ⟨.store .unloaded, by simp only [beginSave, hexpire, hfree, Store.get, hl]⟩

namespace Attended

theorem of_store (h : Attended config queue delivered s) (store : Store) :
    Attended config queue delivered { s with client := { s.client with store } } :=
  ⟨h.config, h.ordered, h.undelivered, h.elsewhere, h.free, h.saving, h.resulted, h.numbered,
    h.unnumbered⟩

theorem of_host (h : Attended config queue delivered s) (c : HostCommand) :
    Attended config (queue ++ s.host.arrived (s.host.execute c) .elsewhere) delivered
      { s with host := s.host.execute c } := by
  obtain ⟨ms, hms, noResult⟩ := MemoryHost.undelivered_execute c h.ordered
  rw [MemoryHost.arrived_eq hms]
  have hanswers : answersIn (queue ++ ms.map fun m => ⟨.elsewhere, m⟩) = answersIn queue := by
    rw [answersIn_append, answersIn_elsewhere, List.append_nil]
  refine ⟨h.config, h.ordered.execute c, ?_, ?_, hanswers ▸ h.free, hanswers ▸ h.saving,
    hanswers ▸ h.resulted, h.numbered, h.unnumbered⟩
  · simp [hms, h.undelivered, Function.comp_def]
  · intro q hq horigin
    rcases List.mem_append.mp hq with hq | hq
    · exact h.elsewhere q hq horigin
    · obtain ⟨m, hm, rfl⟩ := List.mem_map.mp hq
      exact noResult m hm

theorem of_load (h : Attended config queue delivered s) (path : Option String) (now : Nat) :
    Attended config queue delivered (s.load path now).2 := by
  obtain ⟨requests, hhost, hguard, hkept, -⟩ := load_cases s path now
  obtain ⟨-, hcounter, -⟩ := load_frame s path now
  refine ⟨hkept.config.trans h.config, ?_, ?_, h.elsewhere, ?_, ?_, ?_, ?_, ?_⟩
  · rw [hhost]
    exact h.ordered
  · rw [hhost]
    exact h.undelivered
  · rw [hguard]
    exact h.free
  · rw [hguard]
    exact h.saving
  · rw [hguard]
    exact h.resulted
  · intro save hg
    obtain ⟨n, hn, hid⟩ := h.numbered save (hguard ▸ hg)
    exact ⟨n, by omega, hid⟩
  · intro m hm n hn
    exact h.unnumbered m hm n (by omega)

theorem of_beginSave (h : Attended config queue delivered s) (untimed : config.echoTimeout = none)
    (now : Nat) : Attended config (queue ++ s.host.arrived (s.beginSave now).2.host .save)
      delivered (s.beginSave now).2 := by
  have never := (congrArg SyncConfig.echoTimeout h.config).trans untimed
  rcases beginSave_cases now never with ⟨l, hfree, -, heq⟩ | ⟨e, heq⟩
  · obtain ⟨ms, hms, answering⟩ := MemoryHost.undelivered_submit
      (requestId (s.client.counter + 1)) l.current.digest l.current h.ordered
    have hms : (s.handedOver l.current now).host.undelivered = s.host.undelivered ++ ms := hms
    rw [heq, MemoryHost.arrived_eq hms]
    refine ⟨h.config, ?_, ?_, ?_, nofun, fun save hg => ?_, fun save hg => ?_, fun save hg => ?_,
      fun m hm n hn => h.unnumbered m hm n (Nat.lt_of_succ_lt hn)⟩
    · obtain ⟨host', hsubmit, submitted⟩ := MemoryHost.submit_persist
        (requestId (s.client.counter + 1)) l.current.digest l.current h.ordered
      change (Transport.submit s.host _).2.Ordered
      rw [hsubmit]
      exact submitted.ordered
    · simp [hms, h.undelivered, Function.comp_def]
    · intro q hq horigin
      rcases List.mem_append.mp hq with hq | hq
      · exact h.elsewhere q hq horigin
      · obtain ⟨m, -, rfl⟩ := List.mem_map.mp hq
        cases horigin
    · -- An echo that still waits stands before what answers the new save.
      cases hg
      rw [answersIn_append, answersIn_saved]
      exact (h.free hfree).append answering
    · cases hg
      rintro ⟨m, hm, result⟩
      exact absurd result (h.unnumbered m hm _ (Nat.lt_succ_self _))
    · cases hg
      exact ⟨_, Nat.le_refl _, rfl⟩
  · rw [heq, MemoryHost.arrived_eq (List.append_nil _).symm, List.map_nil, List.append_nil]
    exact h

theorem answersIn_eq_inbox (h : Attended config queue delivered s) (hp : s.host.paused = false)
    (answers : ∀ q ∈ queue, q.origin = .save) : answersIn queue = s.host.inbox := by
  have hall : queue.filter (·.origin = .save) = queue :=
    List.filter_eq_self.mpr fun q hq => by simp [answers q hq]
  rw [answersIn, hall, h.undelivered, MemoryHost.undelivered, h.ordered hp, List.append_nil]

theorem mem_answersIn_of_result (h : Attended config queue delivered s) {m : HostMessage}
    {id : String} (hm : m ∈ s.host.undelivered) (result : m.IsResultOf id) :
    m ∈ answersIn queue := by
  rw [← h.undelivered] at hm
  obtain ⟨q, hq, rfl⟩ := List.mem_map.mp hm
  cases horigin : q.origin with
  | elsewhere => exact absurd result (h.elsewhere q hq horigin id)
  | save => exact List.mem_map_of_mem (List.mem_filter.mpr ⟨hq, by simp [horigin]⟩)

theorem no_result (h : Attended config queue delivered s)
    (hfree : s.client.guard.inFlight? = none) {m : HostMessage} (hm : m ∈ s.host.undelivered)
    (id : String) : ¬ m.IsResultOf id :=
  fun result => (h.free hfree).no_result (h.mem_answersIn_of_result hm result) result

theorem result_eq (h : Attended config queue delivered s) {save : InFlightSave} {m : HostMessage}
    {id : String} (hg : s.client.guard = .awaitingEcho save) (hm : m ∈ s.host.undelivered)
    (result : m.IsResultOf id) : id = save.requestId :=
  (h.saving save hg).result_eq (h.mem_answersIn_of_result hm result) result

theorem unnumbered_undelivered (h : Attended config queue delivered s) {m : HostMessage} {n : Nat}
    (hm : m ∈ s.host.undelivered) (hn : s.client.counter < n) :
    ¬ m.IsResultOf (requestId n) := by
  intro result
  by_cases hfree : s.client.guard.inFlight? = none
  · exact h.no_result hfree hm _ result
  · obtain ⟨save, hg⟩ : ∃ save, s.client.guard = .awaitingEcho save := by
      simpa [EchoGuard.inFlight?_eq_none] using hfree
    obtain ⟨k, hk, hid⟩ := h.numbered save hg
    have := requestId_inj.mp ((h.result_eq hg hm result).trans hid)
    omega

theorem of_receive {m : HostMessage} {rest : List HostMessage}
    (h : Attended config queue delivered s) (hin : s.host.inbox = m :: rest) :
    Attended config queue.tail (m :: delivered)
      { s with host := { s.host with inbox := rest } } := by
  have unnumbered : ∀ m' ∈ m :: delivered, ∀ n, s.client.counter < n →
      ¬ m'.IsResultOf (requestId n) := by
    refine List.forall_mem_cons.mpr ⟨fun n hn => ?_, h.unnumbered⟩
    exact h.unnumbered_undelivered (by simp [MemoryHost.undelivered, hin]) hn
  have hundelivered := h.undelivered
  rw [MemoryHost.undelivered, hin] at hundelivered
  obtain ⟨q, queue', rfl, rfl, hrest⟩ := List.map_eq_cons_iff.mp hundelivered
  have elsewhere := fun q hq => h.elsewhere q (List.mem_cons_of_mem _ hq)
  have hanswers := answersIn_cons q queue'
  cases horigin : q.origin with
  | elsewhere =>
    have same : answersIn (q :: queue') = answersIn queue' := by simp [hanswers, horigin]
    refine ⟨h.config, h.ordered, hrest, elsewhere, same ▸ h.free, same ▸ h.saving,
      fun save hg => ?_, h.numbered, unnumbered⟩
    rintro ⟨m, hm, result⟩
    rcases List.mem_cons.mp hm with rfl | hm
    · exact absurd result (h.elsewhere q List.mem_cons_self horigin _)
    · exact same ▸ h.resulted save hg ⟨m, hm, result⟩
  | save =>
    rw [if_pos horigin] at hanswers
    refine ⟨h.config, h.ordered, hrest, elsewhere, fun hfree => ?_, fun save hg => ?_,
      fun save hg => ?_, h.numbered, unnumbered⟩
    · exact (hanswers ▸ h.free hfree).tail
    · exact (hanswers ▸ h.saving save hg).tail
    · rintro ⟨m, hm, result⟩
      rcases List.mem_cons.mp hm with rfl | hm
      · exact (hanswers ▸ h.saving save hg).echoing result
      · exact (hanswers ▸ h.resulted save hg ⟨m, hm, result⟩).tail

theorem of_handle {m : HostMessage} (h : Attended config queue delivered s)
    (untimed : config.echoTimeout = none) (now : Nat) (hm : m ∈ delivered) :
    Attended config queue delivered { s with client := (s.client.handle m now).2 } := by
  have handled : s.client.Handled now m (s.client.handle m now).1 (s.client.handle m now).2 :=
    Client.handled_handle rfl
  have hcounter : (s.client.handle m now).2.counter = s.client.counter :=
    s.client.counter_handle m now
  -- Either no save is in flight any more, or the same one as before.
  have hguard : ((s.client.handle m now).2.guard.inFlight? = none ∧ Echoing (answersIn queue)) ∨
      ∃ save save', s.client.guard = .awaitingEcho save ∧
        (s.client.handle m now).2.guard = .awaitingEcho save' ∧
        save'.requestId = save.requestId := by
    by_cases hfree : s.client.guard.inFlight? = none
    · exact .inl ⟨handled.free hfree, h.free hfree⟩
    · obtain ⟨save, hg⟩ : ∃ save, s.client.guard = .awaitingEcho save := by
        simpa [EchoGuard.inFlight?_eq_none] using hfree
      by_cases own : m.IsResultOf save.requestId
      · have echoing := h.resulted save hg ⟨m, hm, own⟩
        obtain ⟨ok, error, rfl⟩ := own
        exact .inl ⟨handled.result_free hg, echoing⟩
      · obtain ⟨-, save', hg', continues⟩ := handled.awaiting (h.config ▸ untimed) hg own
        exact .inr ⟨save, save', hg, hg', continues.requestId⟩
  have config_eq := handled.config_eq.trans h.config
  have unnumbered := h.unnumbered
  rw [← hcounter] at unnumbered
  rcases hguard with ⟨hfree, echoing⟩ | ⟨save, save', hg, hg', hid⟩
  · have notAwaiting := EchoGuard.inFlight?_eq_none.mp hfree
    exact ⟨config_eq, h.ordered, h.undelivered, h.elsewhere, fun _ => echoing,
      fun save hg => absurd hg (notAwaiting save), fun save hg => absurd hg (notAwaiting save),
      fun save hg => absurd hg (notAwaiting save), unnumbered⟩
  · refine ⟨config_eq, h.ordered, h.undelivered, h.elsewhere,
      fun hfree => absurd hg' (EchoGuard.inFlight?_eq_none.mp hfree save'), ?_, ?_, ?_, unnumbered⟩
    all_goals
      intro save'' hg''
      cases hg'.symm.trans hg''
      simp only [hid, hcounter]
    · exact h.saving save hg
    · exact h.resulted save hg
    · exact h.numbered save hg

end Attended

/-- Whatever the client, its host and the other writers do, the answers that wait are told by the
guard. -/
theorem Served.attended (served : Served config queue delivered s)
    (untimed : config.echoTimeout = none) : Attended config queue delivered s := by
  induction served with
  | start store document =>
    refine ⟨rfl, fun _ => rfl, rfl, List.forall_mem_nil _, fun _ => .nothing, ?_, ?_, ?_,
      List.forall_mem_nil _⟩
    all_goals rintro save ⟨⟩
  | store store _ ih => exact ih.of_store store
  | host c _ ih => exact ih.of_host c
  | load path now _ ih => exact ih.of_load path now
  | beginSave now _ ih => exact ih.of_beginSave untimed now
  | receive _ hin ih => exact ih.of_receive hin
  | handle now _ hm ih => exact ih.of_handle untimed now hm

end Session

end ShellSettings
