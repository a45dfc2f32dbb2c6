import ShellSettings.Proofs.Sync.Convergence

/-!
# Echoes that come after their results

With a host that sends the result of a save before its echo, the next save can
be begun while that echo is still on its way. The guard then takes it for the
echo of the new save, whose own echo passes for a change of another writer and
replaces the document, edits included. As long as no save overtakes an echo this
way, every echo is taken for what it is; once one does, it is only a matter of
delivering what is on its way until edits are lost
(`Run.replaced_iff_overtaking`).
-/

namespace ShellSettings.Session

/-- What is left to come if every echo comes after its result, and whether it is one echo more than
the guard will take for one. -/
inductive Trailing : Bool → EchoGuard → List HostMessage → Prop
  | settled : Trailing false .idle []
  | late {late : SettledSave} {d} (digest : d.digest = late.digest) :
    Trailing false (.awaitingLateEcho late) [.changed d]
  | saved {save : InFlightSave} {d} (fresh : save.echoSeen = false)
    (superseded : save.superseded = false) (digest : d.digest = save.digest) :
    Trailing false (.awaitingEcho save) [.persisted save.requestId, .changed d]
  | surplus {d} : Trailing true .idle [.changed d]
  | first {save : InFlightSave} {d d'} (fresh : save.echoSeen = false)
    (superseded : save.superseded = false) :
    Trailing true (.awaitingEcho save) [.changed d', .persisted save.requestId, .changed d]
  | second {save : InFlightSave} {d} (seen : save.echoSeen = true)
    (superseded : save.superseded = false) :
    Trailing true (.awaitingEcho save) [.persisted save.requestId, .changed d]

variable {s s' : Session MemoryHost} {g g' : EchoGuard} {ms : List HostMessage} {owed : Bool}
  {save : InFlightSave} {d : Document} {now : Nat} {c c' : Client}
  {outcome : Except SyncError Outcome}

theorem Trailing.nil (h : Trailing owed g []) : owed = false := by
  cases h with
  | settled => rfl

/-- A save overtakes the echo that is on its way when it is begun, and then one is left over. -/
theorem Trailing.submitted (h : Trailing owed g ms) (free : g.inFlight? = none)
    (fresh : save.echoSeen = false ∧ save.superseded = false)
    (digest : d.digest = save.digest) :
    ∃ owed', Trailing owed' (.awaitingEcho save)
        (ms ++ [.persisted save.requestId, .changed d]) ∧
      (owed' = true ↔ ∃ d', .changed d' ∈ ms) ∧ (owed = true → owed' = true) := by
  cases h with
  | settled => exact ⟨false, .saved fresh.1 fresh.2 digest, by simp, id⟩
  | late | surplus => exact ⟨true, .first fresh.1 fresh.2, by simp, fun _ => rfl⟩
  | saved | first | second => cases free

theorem Trailing.suppressed {id : String} (h : Trailing owed g (.changed d :: ms))
    (hg : g.Suppresses d.digest id g') : Trailing owed g' ms := by
  cases hg with
  | first =>
    cases h with
    | first _ superseded => exact .second rfl superseded
  | late =>
    cases h with
    | late => exact .settled

theorem Trailing.passed (h : Trailing owed g (.changed d :: ms)) (hg : g.Passes none d.digest g') :
    owed = true ∧ Trailing false g' ms := by
  cases hg with
  | idle =>
    cases h with
    | surplus => exact ⟨rfl, .settled⟩
  | second seen =>
    cases h with
    | first fresh => simp [fresh] at seen
  | other digest_ne =>
    cases h with
    | late digest => exact absurd digest digest_ne
  | stale timed => exact absurd rfl timed

theorem Trailing.result {id : String} {ok : Bool} {e : Option HostError}
    (h : Trailing owed c.guard (.persistResult id ok e :: ms)) (hc : c.Grounded)
    (hh : c.Handled now (.persistResult id ok e) outcome c') : Trailing owed c'.guard ms := by
  generalize hg : c.guard = g, hms : HostMessage.persistResult id ok e :: ms = all at h
  cases h with
  | settled | late | surplus | first => cases hms
  | @saved save d fresh superseded digest =>
    cases hms
    rw [(hh.confirmed_result hc hg superseded).1]
    simp only [Client.guardAfter, fresh]
    exact .late digest
  | @second save d seen superseded =>
    cases hms
    rw [(hh.confirmed_result hc hg superseded).1]
    simp only [Client.guardAfter, seen]
    exact .surplus

-- ---------------------------------------------------------------------------
-- Runs
-- ---------------------------------------------------------------------------

/-- A save is begun before an echo has been taken in that the host has already sent. -/
def Event.Overtakes : Event MemoryHost → Prop
  | .begun b _ => ∃ d, .changed d ∈ b.host.undelivered
  | .taken .. => False

def Event.Replaces : Event MemoryHost → Prop
  | .taken _ (.changed _) (.ok (.externalReplaced _ _)) _ => True
  | _ => False

theorem exists_of_replaces {m : HostMessage}
    (h : (Event.taken c m outcome c' : Event MemoryHost).Replaces) :
    ∃ d revision dropped, m = .changed d ∧ outcome = .ok (.externalReplaced revision dropped) := by
  unfold Event.Replaces at h
  split at h
  · rename_i heq
    cases heq
    exact ⟨_, _, _, rfl, rfl⟩
  · cases h

@[simp] theorem replaces_begun {id : String} : ¬ (Event.begun s id).Replaces :=
  not_false

@[simp] theorem overtakes_taken {m : HostMessage} :
    ¬ (Event.taken c m outcome c' : Event MemoryHost).Overtakes := not_false

@[simp] theorem overtakes_begun {id : String} :
    (Event.begun s id).Overtakes ↔ ∃ d, .changed d ∈ s.host.signals :=
  exists_congr fun _ => MemoryHost.changed_mem_signals.symm

theorem overtakes_of_inbox {id : String} {rest : List HostMessage}
    (h : s.host.inbox = .changed d :: rest) : (Event.begun s id).Overtakes :=
  ⟨d, by simp [MemoryHost.undelivered, h]⟩

def SavedIn (log : List (Event MemoryHost)) (d : Document) : Prop :=
  ∃ b id, .begun b id ∈ log ∧ b.client.store.get = .ok d

variable {log more : List (Event MemoryHost)}

theorem SavedIn.append (h : SavedIn log d) : SavedIn (log ++ more) d := by
  obtain ⟨b, id, hb, hget⟩ := h
  exact ⟨b, id, List.mem_append_left _ hb, hget⟩

theorem exists_mem_concat {P : Event MemoryHost → Prop} {e : Event MemoryHost} :
    (∃ e' ∈ log ++ [e], P e') ↔ (∃ e' ∈ log, P e') ∨ P e := by
  simp [or_and_right, exists_or]

/-- What a session is in whose saves are the only ones, and whose echoes come last. -/
structure ResultFirst (log : List (Event MemoryHost)) (s : Session MemoryHost) : Prop where
  order : s.host.resultFirst = true
  trailing : ∃ owed, Trailing owed s.client.guard s.host.signals ∧
    ((owed = true ∨ ∃ e ∈ log, e.Replaces) ↔ ∃ e ∈ log, e.Overtakes)
  counted : s.client.status.externalChanges = 0 ↔ ¬ ∃ e ∈ log, e.Replaces
  own : ∀ d, .changed d ∈ s.host.signals → SavedIn log d
  taken : ∀ c d outcome c', .taken c (.changed d) outcome c' ∈ log → SavedIn log d

theorem ResultFirst.begun (h : ResultFirst log s) (hl : s.host.Lossless) (ha : Accepted s save s') :
    ResultFirst (log ++ [.begun s save.requestId]) s' := by
  have hanswers := hl.answers_eq save.requestId save.document
  rw [if_pos h.order] at hanswers
  obtain ⟨owed, htrailing, hiff⟩ := h.trailing
  obtain ⟨owed', htrailing', howed, hmono⟩ := htrailing.submitted ha.free ha.fresh ha.digest.symm
  refine ⟨ha.submitted.manner.resultFirst.trans h.order, ⟨owed', ?_, ?_⟩, ?_, fun d hd => ?_, ?_⟩
  · rw [ha.guard, ha.signals, hanswers]
    exact htrailing'
  · -- An echo is owed after this save exactly if one was on its way before it.
    simp only [exists_mem_concat, replaces_begun, overtakes_begun, or_false, ← howed]
    constructor
    · rintro (howed | hreplaced)
      · exact .inr howed
      · exact .inl (hiff.mp (.inr hreplaced))
    · rintro (hovertaken | howed)
      · exact (hiff.mpr hovertaken).imp_left hmono
      · exact .inl howed
  · simp only [exists_mem_concat, replaces_begun, or_false]
    exact ha.kept.externalChanges ▸ h.counted
  · rw [ha.signals] at hd
    rcases List.mem_append.mp hd with hd | hd
    · exact (h.own d hd).append
    · obtain ⟨l, hloaded, hcurrent⟩ := ha.current
      cases MemoryHost.eq_of_changed_mem_answers hd
      exact ⟨s, save.requestId, List.mem_append_right _ List.mem_cons_self,
        by simp [Store.get, hloaded, hcurrent]⟩
  · intro c d outcome c' hmem
    simp only [List.mem_append, List.mem_singleton, reduceCtorEq, or_false] at hmem
    exact (h.taken c d outcome c' hmem).append

theorem ResultFirst.savedIn_of_taken {m : HostMessage} {rest : List HostMessage}
    (h : ResultFirst log s) (hin : s.host.inbox = m :: rest)
    (outcome : Except SyncError Outcome) (c : Client) :
    (∀ d, .changed d ∈ ({ s.host with inbox := rest } : MemoryHost).signals →
        SavedIn (log ++ [.taken s.client m outcome c]) d) ∧
      ∀ c₀ d o₀ c₁, .taken c₀ (.changed d) o₀ c₁ ∈ log ++ [.taken s.client m outcome c] →
        SavedIn (log ++ [.taken s.client m outcome c]) d := by
  have hsignals := MemoryHost.signals_cons hin
  refine ⟨fun d hd => ?_, fun c₀ d o₀ c₁ hmem => ?_⟩
  · exact (h.own d (hsignals ▸ List.mem_append_right _ hd)).append
  · rcases List.mem_append.mp hmem with hmem | hmem
    · exact (h.taken _ _ _ _ hmem).append
    · cases List.mem_singleton.mp hmem
      exact (h.own d (hsignals ▸ List.mem_cons_self)).append

theorem ResultFirst.take_kept {m : HostMessage} {rest : List HostMessage} (h : ResultFirst log s)
    (hin : s.host.inbox = m :: rest) (kept : s.client.Kept c)
    (hreplaces : ¬ (Event.taken s.client m outcome c : Event MemoryHost).Replaces)
    (htrailing : ∀ owed, Trailing owed s.client.guard ([m].filter HostMessage.isSignal ++
        ({ s.host with inbox := rest } : MemoryHost).signals) →
      Trailing owed c.guard ({ s.host with inbox := rest } : MemoryHost).signals) :
    ResultFirst (log ++ [.taken s.client m outcome c]) ⟨c, { s.host with inbox := rest }⟩ := by
  obtain ⟨owed, ht, hiff⟩ := h.trailing
  obtain ⟨hown, htaken⟩ := h.savedIn_of_taken hin outcome c
  rw [MemoryHost.signals_cons hin] at ht
  refine ⟨h.order, ⟨owed, htrailing owed ht, ?_⟩, ?_, hown, htaken⟩
  · simpa only [exists_mem_concat, hreplaces, overtakes_taken, or_false] using hiff
  · simp only [exists_mem_concat, hreplaces, or_false]
    exact kept.externalChanges ▸ h.counted

theorem ResultFirst.take {m : HostMessage} {rest : List HostMessage} (h : ResultFirst log s)
    (ht : s.client.config.echoTimeout = none) (hg : s.client.Grounded)
    (hin : s.host.inbox = m :: rest) (hh : s.client.Handled now m outcome c) :
    ResultFirst (log ++ [.taken s.client m outcome c]) ⟨c, { s.host with inbox := rest }⟩ := by
  cases m with
  | persistResult id ok e =>
    exact h.take_kept hin hh.result_kept not_false fun _ htrailing => htrailing.result hg hh
  | catalogUpdated feed =>
    cases hh with
    | catalog guard store kept =>
      exact h.take_kept hin kept not_false fun _ htrailing => guard ▸ htrailing
  | changed d =>
    cases hh with
    | suppressed suppresses _ kept =>
      exact h.take_kept hin kept not_false fun _ htrailing => htrailing.suppressed suppresses
    | replaced passes _ _ counted =>
      -- Only a save that overtook an echo has left one that passes, so both sides come true.
      obtain ⟨owed, htrailing, hiff⟩ := h.trailing
      rw [MemoryHost.signals_cons hin] at htrailing
      obtain ⟨howed, htrailing⟩ := htrailing.passed (ht ▸ passes)
      obtain ⟨hown, htaken⟩ := h.savedIn_of_taken hin _ c
      have hovertaken := hiff.mp (.inl howed)
      refine ⟨h.order, ⟨false, htrailing, ?_⟩, ?_, hown, htaken⟩
      · exact iff_of_true (.inr (exists_mem_concat.mpr (.inr trivial)))
          (exists_mem_concat.mpr (.inl hovertaken))
      · refine iff_of_false (by simp [counted]) (not_not_intro ?_)
        exact exists_mem_concat.mpr (.inr trivial)

variable {policy : RestartPolicy} {ids : IdSource} {persistTimeout : Nat} {document : Document}

theorem Run.resultFirst (hd : document.WellFormed)
    (run : Run (HostCommand.Moves fun command => command.IsSolo ∧ command.IsLossless)
      (opened policy ids ⟨none, persistTimeout⟩ { document, resultFirst := true }) log s) :
    ResultFirst log s := by
  refine (run.memory_induction (motive := fun log s => InStep s ∧ ResultFirst log s) (fun _ => rfl)
    (Client.grounded_of_idle rfl) ?initial ?edit ?host ?load ?refuse ?arm ?take).1.2
  case initial =>
    exact ⟨inStep_opened hd, rfl, ⟨false, .settled, by simp⟩, by simp [opened],
      fun _ h => absurd h List.not_mem_nil, fun _ _ _ _ h => absurd h List.not_mem_nil⟩
  case edit =>
    exact fun ih he =>
      ⟨ih.1.edited he, ih.2.order, ih.2.trailing, ih.2.counted, ih.2.own, ih.2.taken⟩
  case host =>
    intro log s command ih ho hc
    obtain ⟨hsignals, horder⟩ := MemoryHost.solo_execute hc.1 ho
    exact ⟨ih.1.executed ho hc.2, horder.trans ih.2.order, hsignals ▸ ih.2.trailing, ih.2.counted,
      hsignals ▸ ih.2.own, ih.2.taken⟩
  case load =>
    intro log s c requests ih hguard hkept hstore
    exact ⟨ih.1.fetched hguard hkept hstore, ih.2.order, hguard ▸ ih.2.trailing,
      hkept.externalChanges ▸ ih.2.counted, ih.2.own, ih.2.taken⟩
  case refuse =>
    intro log s e s' ih hbegun
    refine ⟨ih.1.refused hbegun, ?_⟩
    cases hbegun with
    | refused _ guard kept =>
      rcases guard with guard | ⟨-, timed⟩
      · exact ⟨ih.2.order, guard ▸ ih.2.trailing, kept.externalChanges ▸ ih.2.counted, ih.2.own,
          ih.2.taken⟩
      · exact absurd ih.1.timeout timed
  case arm =>
    intro log s id s' ih hbegun
    obtain ⟨save, rfl, accepted⟩ := ih.1.accepted hbegun
    exact ⟨ih.1.begun accepted, ih.2.begun ih.1.lossless accepted⟩
  case take => exact fun ih hg hin hh => ⟨ih.1.taken hg hin hh, ih.2.take ih.1.timeout hg hin hh⟩

theorem Run.change_cases {moves : MemoryHost → MemoryHost → Prop} {start : Session MemoryHost}
    (run : Run moves start log s) (h : .taken c (.changed d) outcome c' ∈ log) :
    (∃ id, outcome = .ok (.echoSuppressed id)) ∧ c'.store = c.store ∨
      (Event.taken c (.changed d) outcome c' : Event MemoryHost).Replaces ∧
        c'.store = (c.store.install d).1 := by
  obtain ⟨now, hhandle⟩ := run.handle_of_taken h
  cases Client.handled_handle hhandle with
  | suppressed _ store => exact .inl ⟨⟨_, rfl⟩, store⟩
  | replaced _ store => exact .inr ⟨trivial, store⟩

/-- As long as no save is begun while an echo is on its way, every echo is suppressed and leaves the
store alone. If one is, then by the time that all is delivered a document that this client has
saved itself has replaced the one it had, with the edits made since. -/
theorem Run.replaced_iff_overtaking {v : Json}
    (run : Run (HostCommand.Moves fun command => command.IsSolo ∧ command.IsLossless)
      (opened policy ids ⟨none, persistTimeout⟩ { document, resultFirst := true }) log s)
    (readable : Document.ofJson? v = .ok document) :
    ((∀ e ∈ log, ¬ e.Overtakes) → s.client.status.externalChanges = 0 ∧
      ∀ c d outcome c', .taken c (.changed d) outcome c' ∈ log →
        (∃ id, outcome = .ok (.echoSuppressed id)) ∧ c'.store = c.store) ∧
    ((∃ e ∈ log, e.Overtakes) → s.host.undelivered = [] →
      s.client.status.externalChanges ≠ 0 ∧
      ∃ c d outcome c', .taken c (.changed d) outcome c' ∈ log ∧
        (∃ revision dropped, outcome = .ok (.externalReplaced revision dropped)) ∧
        c'.store = (c.store.install d).1 ∧
        ∃ b id, .begun b id ∈ log ∧ b.client.store.get = .ok d) := by
  have h := run.resultFirst (Document.wellFormed_of_read readable)
  obtain ⟨owed, htrailing, hiff⟩ := h.trailing
  refine ⟨fun hnone => ?_, fun hovertaken hnil => ?_⟩
  · have hkept : ¬ ∃ e ∈ log, e.Replaces := by
      intro hreplaced
      obtain ⟨e, he, hovertakes⟩ := hiff.mp (.inr hreplaced)
      exact hnone e he hovertakes
    refine ⟨h.counted.mpr hkept, fun c d outcome c' hmem => ?_⟩
    exact (run.change_cases hmem).resolve_right fun hreplaced => hkept ⟨_, hmem, hreplaced.1⟩
  · -- Nothing is on its way, so the echo that was owed has been taken in.
    have hsignals : s.host.signals = [] := by simp [MemoryHost.signals, hnil]
    rw [hsignals] at htrailing
    have hreplaced := (hiff.mpr hovertaken).resolve_left (by simp [htrailing.nil])
    refine ⟨fun hzero => h.counted.mp hzero hreplaced, ?_⟩
    obtain ⟨e, hmem, hreplaces⟩ := hreplaced
    cases e with
    | begun b id => exact absurd hreplaces replaces_begun
    | taken c m outcome c' =>
      obtain ⟨d, revision, dropped, rfl, rfl⟩ := exists_of_replaces hreplaces
      have hstore : c'.store = (c.store.install d).1 := by
        rcases run.change_cases hmem with ⟨⟨_, houtcome⟩, -⟩ | ⟨-, hstore⟩
        · cases houtcome
        · exact hstore
      exact ⟨c, d, _, c', hmem, ⟨_, _, rfl⟩, hstore, h.taken _ _ _ _ hmem⟩

-- ---------------------------------------------------------------------------
-- Two saves in a row
-- ---------------------------------------------------------------------------

/-- After two saves, the second begun right after the result of the first, the last echo brings back
what was saved, whatever has been edited since. -/
theorem Run.edit_lost {moves : MemoryHost → MemoryHost → Prop} {start : Session MemoryHost}
    {l : Loaded} (command : StoreCommand) (run : Run moves start log s)
    (ht : s.client.config.echoTimeout = none) (hg : s.client.guard = .idle)
    (hl : s.client.store.loaded = some l) (hw : l.current.WellFormed) (hlossless : s.host.Lossless)
    (horder : s.host.resultFirst = true) (hp : s.host.paused = false)
    (hnil : s.host.inbox = [] ∧ s.host.held = []) (hc : command.IsEdit) :
    ∃ more c s', Run moves start (log ++ more) s' ∧ (∃ e ∈ more, e.Overtakes) ∧
      s'.host.undelivered = [] ∧
      c.store = ({ s.client.store with
        loaded := some { l with snapshot := l.current, repaired := false } }.execute command).2 ∧
      .taken c (.changed l.current) (.ok (c.replace l.current 0).1) s'.client ∈ more ∧
      s'.client = (c.replace l.current 0).2 := by
  obtain ⟨save, requests, ⟨document, fresh, superseded⟩, begun⟩ :=
    run.beginAccepted 0 ht (by simp [hg, EchoGuard.inFlight?]) hl hw hp hlossless.failures
  have hanswers : ∀ id, s.host.answers id l.current = [.persisted id, .changed l.current] := by
    intro id
    rw [hlossless.answers_eq, if_pos horder]
  have confirmed :=
    begun.takePersisted 0 (by rw [hnil.1, hanswers]; rfl) rfl rfl superseded hl
  obtain ⟨save', requests', ⟨document', fresh', superseded'⟩, overtaking⟩ :=
    confirmed.beginAccepted 0 ht
      (by simp [Client.confirmed, Client.guardAfter, fresh, EchoGuard.inFlight?]) rfl hw hp
      hlossless.failures
  have echoed :=
    overtaking.takeEcho 0 (congrArg ([.changed l.current] ++ ·) (hanswers save'.requestId)) ht rfl
      fresh'
  have settled := echoed.takePersisted 0 rfl rfl rfl superseded' rfl
  have edited := settled.edit hc
  have lost := edited.takeExternal 0 rfl rfl
  rw [document'] at lost
  simp only [List.append_assoc] at lost
  refine ⟨_, _, _, lost, ⟨_, List.mem_append_right _ (List.mem_append_right _
    (List.mem_append_left _ List.mem_cons_self)), overtakes_of_inbox rfl⟩, hnil.2, rfl, ?_, rfl⟩
  simp

theorem exists_run_overtaking :
    ∃ log s c, Run (HostCommand.Moves fun command => command.IsSolo ∧ command.IsLossless)
        (opened .builtIn ⟨fun _ => "new", 0⟩ ⟨none, 10000⟩ { resultFirst := true }) log s ∧
      (∃ e ∈ log, e.Overtakes) ∧ s.host.undelivered = [] ∧
      .taken c (.changed {}) (.ok (c.replace {} 0).1) s.client ∈ log ∧
      s.client = (c.replace {} 0).2 ∧
      c.store.get = .ok { collections := [{ id := "new", name := "Mountains" }] } ∧
      s.client.store.get = .ok {} := by
  let start := opened .builtIn ⟨fun _ => "new", 0⟩ ⟨none, 10000⟩ { resultFirst := true }
  have loaded : Run (HostCommand.Moves fun command => command.IsSolo ∧ command.IsLossless) start []
      (start.load none 0).2 := .load none 0 .start
  rw [load_eq none 0 Document.wellFormed_default rfl] at loaded
  obtain ⟨more, c, s, run, ⟨e, he, hovertakes⟩, hnil, hstore, htaken, hs⟩ :=
    Run.edit_lost (.createCollection "Mountains" []) loaded rfl rfl rfl Document.wellFormed_default
      ⟨rfl, rfl, rfl⟩ rfl rfl ⟨rfl, rfl⟩ trivial
  refine ⟨_, s, c, run, ⟨e, List.mem_append_right _ he, hovertakes⟩, hnil,
    List.mem_append_right _ htaken, hs, ?_, ?_⟩
  · rw [hstore]
    rfl
  · rw [hs]
    change (c.store.install {}).1.get = _
    rw [hstore]
    rfl

theorem replaced_iff_overtaking_two_saves :
    ∃ log s v, Run (HostCommand.Moves fun command => command.IsSolo ∧ command.IsLossless)
        (opened .builtIn ⟨fun _ => "new", 0⟩ ⟨none, 10000⟩ { resultFirst := true }) log s ∧
      Document.ofJson? v = .ok {} ∧ (∃ e ∈ log, e.Overtakes) ∧ s.host.undelivered = [] ∧
      s.client.status.externalChanges ≠ 0 ∧
      ∃ c d outcome c', .taken c (.changed d) outcome c' ∈ log ∧
        (∃ revision dropped, outcome = .ok (.externalReplaced revision dropped)) ∧
        ∃ b id, .begun b id ∈ log ∧ b.client.store.get = .ok d := by
  obtain ⟨log, s, c, run, hovertaken, hnil, -⟩ := exists_run_overtaking
  have readable := Document.ofJson?_toValue Document.wellFormed_default
  obtain ⟨hcounted, c₀, d, outcome, c₁, hmem, hreplaced, -, hsaved⟩ :=
    (run.replaced_iff_overtaking readable).2 hovertaken hnil
  exact ⟨log, s, _, run, readable, hovertaken, hnil, hcounted, c₀, d, outcome, c₁, hmem, hreplaced,
    hsaved⟩

/-- No other writer is there, and yet a collection is gone. -/
theorem created_collection_lost :
    ∃ log s c, Run (HostCommand.Moves fun command => command.IsSolo ∧ command.IsLossless)
        (opened .builtIn ⟨fun _ => "new", 0⟩ ⟨none, 10000⟩ { resultFirst := true }) log s ∧
      (∃ outcome, .taken c (.changed {}) outcome s.client ∈ log) ∧
      c.store.get = .ok { collections := [{ id := "new", name := "Mountains" }] } ∧
      s.client.store.get = .ok {} ∧ s.client.status.externalChanges ≠ 0 := by
  obtain ⟨log, s, c, run, -, -, htaken, hs, hbefore, hafter⟩ := exists_run_overtaking
  refine ⟨log, s, c, run, ⟨_, htaken⟩, hbefore, hafter, ?_⟩
  rw [hs]
  exact Nat.succ_ne_zero _

end ShellSettings.Session
