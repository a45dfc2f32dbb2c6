import ShellSettings.Proofs.Sync.MemoryRun

/-!
# Echoes that come before their results

With a host that sends the echo of a save before its result, and no other
writer, the echo of a save has been taken in by the time that the next save is
begun. So every change that comes is taken for what it is, and edits made while
a save is in flight survive its echo (`Run.changed_suppressed`).
-/

namespace ShellSettings.Session

def ResultLeft (id : String) (ms : List HostMessage) : Prop :=
  ms = [] ∨ ∃ ok e, ms = [.persistResult id ok e]

/-- What is left to come while the guard is in a state: nothing unless it waits for the echo of a
save, and then the echo if it has not been seen, and the result after it. -/
inductive EchoPending : EchoGuard → List HostMessage → Prop
  | idle : EchoPending .idle []
  | late {late : SettledSave} : EchoPending (.awaitingLateEcho late) []
  | result {save : InFlightSave} {ms} (left : ResultLeft save.requestId ms) :
    EchoPending (.awaitingEcho save) ms
  | echo {save : InFlightSave} {d ms} (fresh : save.echoSeen = false)
    (left : ResultLeft save.requestId ms) : EchoPending (.awaitingEcho save) (.changed d :: ms)

structure EchoFirst (s : Session MemoryHost) : Prop where
  timeout : s.client.config.echoTimeout = none
  resultFirst : s.host.resultFirst = false
  externalChanges : s.client.status.externalChanges = 0
  pending : EchoPending s.client.guard s.host.signals

variable {s s' : Session MemoryHost} {g : EchoGuard} {ms : List HostMessage}

theorem EchoPending.nil_of_free (h : EchoPending g ms) (hg : g.inFlight? = none) : ms = [] := by
  cases h with
  | idle | late => rfl
  | result | echo => cases hg

theorem EchoPending.of_changed {d : Document} (h : EchoPending g (.changed d :: ms)) :
    ∃ save, g = .awaitingEcho save ∧ save.echoSeen = false ∧ ResultLeft save.requestId ms := by
  cases h with
  | result left => rcases left with left | ⟨_, _, left⟩ <;> cases left
  | echo fresh left => exact ⟨_, rfl, fresh, left⟩

theorem EchoPending.of_result {id : String} {ok : Bool} {e : Option HostError}
    (h : EchoPending g (.persistResult id ok e :: ms)) :
    ms = [] ∧ ∃ save, g = .awaitingEcho save ∧ save.requestId = id := by
  cases h with
  | result left =>
    rcases left with left | ⟨_, _, left⟩
    · cases left
    · cases left
      exact ⟨rfl, _, rfl, rfl⟩

theorem EchoPending.guardAfter {save : InFlightSave} {now : Nat} :
    EchoPending (Client.guardAfter save now) [] := by
  unfold Client.guardAfter
  split
  · exact .idle
  · exact .late

theorem echoPending_submitted {h h' : MemoryHost} {r : HostRequest} {save : InFlightSave}
    (hs : h.Submitted r h') (horder : h.resultFirst = false) (hnil : h.signals = [])
    (hid : save.requestId = r.id) (fresh : save.echoSeen = false) :
    EchoPending (.awaitingEcho save) h'.signals := by
  cases hs.saved with
  | refused e _ signals =>
    rw [signals, hnil]
    exact .result (.inr ⟨_, _, by rw [hid]; rfl⟩)
  | accepted d _ _ signals =>
    rw [signals, hnil]
    have left : ResultLeft save.requestId
        (if h.dropResults then [] else [HostMessage.persisted r.id]) := by
      split
      · exact .inl rfl
      · exact .inr ⟨_, _, by rw [hid]; rfl⟩
    cases hdrop : h.dropEchoes with
    | true => simpa [MemoryHost.answers, horder, hdrop] using EchoPending.result left
    | false => simpa [MemoryHost.answers, horder, hdrop] using EchoPending.echo fresh left

theorem EchoFirst.begun {r : Except SyncError String} (h : EchoFirst s) (hb : s.Begun r s') :
    EchoFirst s' := by
  cases hb with
  | refused store guard kept =>
    rcases guard with guard | ⟨-, timed⟩
    · exact ⟨kept.config ▸ h.timeout, h.resultFirst, kept.externalChanges.trans h.externalChanges,
        guard ▸ h.pending⟩
    · exact absurd h.timeout timed
  | armed own loaded free guard store document digest fresh submitted kept =>
    have hnil := h.pending.nil_of_free (free.resolve_right fun timed => timed h.timeout)
    exact ⟨kept.config ▸ h.timeout, submitted.manner.resultFirst.trans h.resultFirst,
      kept.externalChanges.trans h.externalChanges,
      guard ▸ echoPending_submitted submitted h.resultFirst hnil own fresh.1⟩

theorem EchoFirst.take {now : Nat} {m : HostMessage} {rest : List HostMessage}
    {outcome : Except SyncError Outcome} {c : Client} (h : EchoFirst s)
    (hin : s.host.inbox = m :: rest) (hh : s.client.Handled now m outcome c) :
    EchoFirst ⟨c, { s.host with inbox := rest }⟩ ∧
      ∀ d, m = .changed d →
        (∃ id, outcome = .ok (.echoSuppressed id)) ∧ c.store = s.client.store := by
  have hpending := h.pending
  rw [MemoryHost.signals_cons hin] at hpending
  cases m with
  | changed d =>
    obtain ⟨save, hg, fresh, left⟩ := hpending.of_changed
    obtain ⟨houtcome, hguard, hstore, hkept⟩ := hh.first_change h.timeout hg fresh
    refine ⟨⟨hkept.config ▸ h.timeout, h.resultFirst,
      hkept.externalChanges.trans h.externalChanges, ?_⟩, fun _ _ => ⟨⟨_, houtcome⟩, hstore⟩⟩
    exact hguard ▸ .result left
  | persistResult id ok e =>
    obtain ⟨hnil, save, hg, own⟩ := hpending.of_result
    have hkept := hh.result_kept
    refine ⟨⟨hkept.config ▸ h.timeout, h.resultFirst,
      hkept.externalChanges.trans h.externalChanges, ?_⟩, nofun⟩
    have hnil : ({ s.host with inbox := rest } : MemoryHost).signals = [] := hnil
    change EchoPending c.guard ({ s.host with inbox := rest } : MemoryHost).signals
    rw [hnil]
    rcases hh.own_result hg own with hguard | hguard
    · exact hguard ▸ .idle
    · exact hguard ▸ .guardAfter
  | catalogUpdated feed =>
    cases hh with
    | catalog guard store kept =>
      exact ⟨⟨kept.config ▸ h.timeout, h.resultFirst,
        kept.externalChanges.trans h.externalChanges, guard ▸ hpending⟩, nofun⟩

variable {store : Store} {document : Document} {persistTimeout : Nat}
  {log : List (Event MemoryHost)}

theorem Run.echoFirst (run : Run (HostCommand.Moves HostCommand.IsSolo)
      ⟨{ store, config := ⟨none, persistTimeout⟩ }, { document }⟩ log s) :
    EchoFirst s ∧ ∀ c d outcome c', .taken c (.changed d) outcome c' ∈ log →
      (∃ id, outcome = .ok (.echoSuppressed id)) ∧ c'.store = c.store := by
  refine (run.memory_induction (motive := fun log s => EchoFirst s ∧
    ∀ c d outcome c', .taken c (.changed d) outcome c' ∈ log →
      (∃ id, outcome = .ok (.echoSuppressed id)) ∧ c'.store = c.store)
    (fun _ => rfl) (Client.grounded_of_idle rfl) ?initial ?edit ?host ?load ?refuse ?arm ?take).1
  case initial => exact ⟨⟨rfl, rfl, rfl, .idle⟩, fun _ _ _ _ h => absurd h List.not_mem_nil⟩
  case edit => exact fun ih _ => ⟨⟨ih.1.timeout, ih.1.resultFirst, ih.1.externalChanges,
    ih.1.pending⟩, ih.2⟩
  case host =>
    intro log s command ih ho hsolo
    obtain ⟨hsignals, hfirst⟩ := MemoryHost.solo_execute hsolo ho
    exact ⟨⟨ih.1.timeout, hfirst.trans ih.1.resultFirst, ih.1.externalChanges,
      hsignals ▸ ih.1.pending⟩, ih.2⟩
  case load =>
    intro log s c requests ih hguard hkept _
    exact ⟨⟨hkept.config ▸ ih.1.timeout, ih.1.resultFirst,
      hkept.externalChanges.trans ih.1.externalChanges, hguard ▸ ih.1.pending⟩, ih.2⟩
  case refuse => exact fun ih hbegun => ⟨ih.1.begun hbegun, ih.2⟩
  case arm => exact fun ih hbegun => ⟨ih.1.begun hbegun, by simpa using ih.2⟩
  case take =>
    intro log s now m rest outcome c ih _ hin handled
    obtain ⟨hfirst, hchanged⟩ := ih.1.take hin handled
    refine ⟨hfirst, fun c₀ d o₀ c₁ h => ?_⟩
    rcases List.mem_append.mp h with h | h
    · exact ih.2 _ _ _ _ h
    · cases List.mem_singleton.mp h
      exact hchanged d rfl

/-- No save's echo is taken for another writer's change, and none changes the store, whatever
edits, saves, loads, failures and losses there are in between. -/
theorem Run.changed_suppressed (run : Run (HostCommand.Moves HostCommand.IsSolo)
      ⟨{ store, config := ⟨none, persistTimeout⟩ }, { document }⟩ log s) :
    s.client.status.externalChanges = 0 ∧
      ∀ c d outcome c', .taken c (.changed d) outcome c' ∈ log →
        (∃ id, outcome = .ok (.echoSuppressed id)) ∧ c'.store = c.store :=
  ⟨run.echoFirst.1.externalChanges, run.echoFirst.2⟩

/-- A collection that is created while a save is in flight outlives the echo of the save. -/
theorem changed_suppressed_new_collection :
    ∃ log s c d outcome c', Run (HostCommand.Moves HostCommand.IsSolo)
        ⟨{ store := { ids := ⟨fun _ => "new", 0⟩ }, config := ⟨none, 10000⟩ }, {}⟩ log s ∧
      .taken c (.changed d) outcome c' ∈ log ∧ c.store.isDirty = true ∧
      (∃ id, outcome = .ok (.echoSuppressed id)) ∧ c'.store = c.store ∧
      s.client.status.externalChanges = 0 := by
  let start : Session MemoryHost :=
    ⟨{ store := { ids := ⟨fun _ => "new", 0⟩ }, config := ⟨none, 10000⟩ }, {}⟩
  have loaded : Run (HostCommand.Moves HostCommand.IsSolo) start [] (start.load none 0).2 :=
    .load none 0 .start
  rw [load_eq none 0 Document.wellFormed_default rfl] at loaded
  have begun := loaded.beginSave 0
  rw [beginSave_eq 0 rfl rfl rfl Document.wellFormed_default rfl rfl] at begun
  have created := begun.edit (c := .createCollection "Mountains" []) trivial
  have echoed := created.takeFirst 0 rfl
  obtain ⟨hnone, hchanged⟩ := echoed.changed_suppressed
  have hlast := hchanged _ _ _ _ (List.mem_append_right _ List.mem_cons_self)
  exact ⟨_, _, _, _, _, _, echoed, List.mem_append_right _ List.mem_cons_self, rfl,
    hlast.1, hlast.2, hnone⟩

end ShellSettings.Session
