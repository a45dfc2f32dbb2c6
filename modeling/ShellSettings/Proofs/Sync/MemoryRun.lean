import ShellSettings.Proofs.Sync.ClientLaws
import ShellSettings.Proofs.Sync.Run

/-!
# Runs with a host in memory

What holds in every state of a run is shown by one induction
(`Run.memory_induction`), whose cases say all that a step can do: an edit, a
command to the host, a load, a save refused or begun, a message taken in. All
the while nothing is held back by a host that is not paused, and a store that is
being saved is loaded.
-/

namespace ShellSettings.Session

def opened (policy : RestartPolicy) (ids : IdSource) (config : SyncConfig) (host : MemoryHost) :
    Session MemoryHost :=
  ⟨{ store := { policy, ids }, config }, host⟩

variable {allowed : HostCommand → Prop} {start s : Session MemoryHost}
  {log : List (Event MemoryHost)}

theorem Run.memory_induction {motive : List (Event MemoryHost) → Session MemoryHost → Prop}
    (ordered : start.host.Ordered) (grounded : start.client.Grounded) (initial : motive [] start)
    (edit : ∀ {log s t}, motive log s → s.client.store.Edited t →
      motive log { s with client := { s.client with store := t } })
    (host : ∀ {log s command}, motive log s → s.host.Ordered → allowed command →
      motive log { s with host := s.host.execute command })
    (load : ∀ {log s c requests}, motive log s → c.guard = s.client.guard → s.client.Kept c →
      (c.store = s.client.store ∨ ∃ d, Document.ofJson? s.host.document.toValue = .ok d ∧
        c.store = (s.client.store.install d).1) →
      motive log ⟨c, { s.host with requests }⟩)
    (refuse : ∀ {log s e s'}, motive log s → s.Begun (.error e) s' → motive log s')
    (arm : ∀ {log s id s'}, motive log s → s.Begun (.ok id) s' →
      motive (log ++ [.begun s id]) s')
    (take : ∀ {log s now m rest outcome c}, motive log s → s.client.Grounded →
      s.host.inbox = m :: rest → s.client.Handled now m outcome c →
      motive (log ++ [.taken s.client m outcome c]) ⟨c, { s.host with inbox := rest }⟩)
    (run : Run (HostCommand.Moves allowed) start log s) :
    motive log s ∧ s.host.Ordered ∧ s.client.Grounded := by
  induction run with
  | start => exact ⟨initial, ordered, grounded⟩
  | @edit log s command run h ih =>
    have he := Store.edited_execute (s := s.client.store) h
    exact ⟨edit ih.1 he, ih.2.1, ih.2.2.edited he⟩
  | host run h ih =>
    obtain ⟨command, hallowed, rfl⟩ := h
    exact ⟨host ih.1 ih.2.1 hallowed, ih.2.1.execute command, ih.2.2⟩
  | @load log s path now run ih =>
    obtain ⟨requests, hhost, hguard, hkept, hstore⟩ := load_cases s path now
    rw [show (s.load path now).2 = ⟨(s.load path now).2.client, { s.host with requests }⟩ by
      rw [← hhost]]
    refine ⟨load ih.1 hguard hkept hstore, ih.2.1, fun save hg => ?_⟩
    rcases hstore with hstore | ⟨d, -, hstore⟩
    · exact hstore ▸ ih.2.2 save (hguard ▸ hg)
    · exact ⟨_, congrArg Store.loaded hstore⟩
  | @beginSave log s now run ih =>
    have hbegun := begun_beginSave s now ih.2.1
    have ho : (s.beginSave now).2.host.Ordered := by
      generalize (s.beginSave now).1 = r, (s.beginSave now).2 = s' at hbegun
      cases hbegun with
      | refused => exact ih.2.1
      | armed _ _ _ _ _ _ _ _ submitted => exact submitted.ordered
    refine ⟨?_, ho, hbegun.grounded ih.2.2⟩
    unfold begun
    cases hr : (s.beginSave now).1 with
    | error e => simpa using refuse ih.1 (hr ▸ hbegun)
    | ok id => exact arm ih.1 (hr ▸ hbegun)
  | @take log s m host outcome c now run h hm ih =>
    have ho := ih.2.1.receive h
    have hh := Client.handled_handle hm
    obtain ⟨rest, hin, rfl⟩ := MemoryHost.receive_eq_message h
    exact ⟨take ih.1 ih.2.2 hin hh, ho, ih.2.2.handled hh⟩
  | poll run h hr ih =>
    cases MemoryHost.receive_eq_nothing h hr
    exact ih

theorem Run.takeFirst {moves : MemoryHost → MemoryHost → Prop} {m : HostMessage}
    {rest : List HostMessage} (now : Nat) (run : Run moves start log s)
    (h : s.host.inbox = m :: rest) :
    Run moves start (log ++ [.taken s.client m (s.client.handle m now).1 (s.client.handle m now).2])
      ⟨(s.client.handle m now).2, { s.host with inbox := rest }⟩ := by
  refine run.take now ?_ rfl
  change MemoryHost.receive s.host = _
  simp [MemoryHost.receive, h]

section Take

variable {moves : MemoryHost → MemoryHost → Prop} {rest : List HostMessage} {save : InFlightSave}
  {d : Document} {id : String} {l : Loaded}

theorem Run.beginAccepted (now : Nat) (run : Run moves start log s)
    (ht : s.client.config.echoTimeout = none) (hfree : s.client.guard.inFlight? = none)
    (hl : s.client.store.loaded = some l) (hd : l.current.WellFormed) (hp : s.host.paused = false)
    (hf : s.host.persistFailures = []) :
    ∃ save requests, (save.document = l.current ∧ save.echoSeen = false ∧ save.superseded = false) ∧
      Run moves start (log ++ [.begun s save.requestId])
        ⟨{ s.client with counter := s.client.counter + 1, guard := .awaitingEcho save },
          { s.host with
            document := l.current, persisted := s.host.persisted ++ [l.current], requests
            inbox := s.host.inbox ++ s.host.answers save.requestId l.current }⟩ := by
  have begun := run.beginSave now
  rw [Session.begun, beginSave_eq now ht hfree hl hd hp hf] at begun
  let save : InFlightSave := {
    requestId := requestId (s.client.counter + 1), digest := l.current.digest
    document := l.current, armedAt := now }
  exact ⟨save, _, ⟨rfl, rfl, rfl⟩, begun⟩

theorem Run.takeEcho (now : Nat) (run : Run moves start log s)
    (hin : s.host.inbox = .changed d :: rest) (ht : s.client.config.echoTimeout = none)
    (hg : s.client.guard = .awaitingEcho save) (fresh : save.echoSeen = false) :
    Run moves start
      (log ++ [.taken s.client (.changed d) (.ok (.echoSuppressed save.requestId))
        (s.client.echoed save)])
      ⟨s.client.echoed save, { s.host with inbox := rest }⟩ := by
  have taken := run.takeFirst now hin
  rw [Client.handle_echo d now ht hg fresh] at taken
  exact taken

theorem Run.takePersisted (now : Nat) (run : Run moves start log s)
    (hin : s.host.inbox = .persisted id :: rest) (hg : s.client.guard = .awaitingEcho save)
    (own : save.requestId = id) (superseded : save.superseded = false)
    (hl : s.client.store.loaded = some l) :
    Run moves start
      (log ++ [.taken s.client (.persisted id) (.ok (.saveConfirmed id))
        (s.client.confirmed save l now)])
      ⟨s.client.confirmed save l now, { s.host with inbox := rest }⟩ := by
  have taken := run.takeFirst now hin
  rw [Client.handle_persisted now hg own superseded hl] at taken
  exact taken

theorem Run.takeExternal (now : Nat) (run : Run moves start log s)
    (hin : s.host.inbox = .changed d :: rest) (hg : s.client.guard = .idle) :
    Run moves start (log ++ [.taken s.client (.changed d) (.ok (s.client.replace d now).1)
        (s.client.replace d now).2])
      ⟨(s.client.replace d now).2, { s.host with inbox := rest }⟩ := by
  have taken := run.takeFirst now hin
  rw [Client.handle_external d now hg] at taken
  exact taken

end Take

end ShellSettings.Session
