import ShellSettings.Host.Script
import ShellSettings.Proofs.Sync.AnyHost

/-!
# Accounts of saves and messages

A save that was begun is due one result and one echo. The guard knows which of
them are still to come. A message that brings one takes it off the guard, and
only a new save, with an id that no save had before, puts one there. So no save
is settled or echoed twice, whatever messages come and however often, and the
counters say how often each thing has happened (`Session.Steps.accounted`).
-/

namespace ShellSettings

inductive Due where
  | result
  | echo
deriving DecidableEq

/-- The save for which something is still to come. -/
def EchoGuard.owes : Due → EchoGuard → Option String
  | .result, .awaitingEcho save => some save.requestId
  | .echo, .awaitingEcho save => if save.echoSeen then none else some save.requestId
  | .echo, .awaitingLateEcho late => some late.requestId
  | _, _ => none

namespace Session.Report

def begins (id : String) : Report → Bool
  | .save (.ok other) => other == id
  | _ => false

def brings (id : String) : Due → Report → Bool
  | .result, .message _ (.ok (.saveConfirmed other)) => other == id
  | .result, .message _ (.ok (.saveFailed other _)) => other == id
  | .echo, .message _ (.ok (.echoSuppressed other)) => other == id
  | _, _ => false

def isConfirmed : Report → Bool
  | .message _ (.ok (.saveConfirmed _)) => true
  | _ => false

/-- A save failed, or the host would not take it. -/
def isFailed : Report → Bool
  | .message _ (.ok (.saveFailed _ _)) => true
  | .save (.error (.persist _)) => true
  | _ => false

def isSuppressed : Report → Bool
  | .message _ (.ok (.echoSuppressed _)) => true
  | _ => false

def isReplaced : Report → Bool
  | .message _ (.ok (.externalReplaced _ _)) => true
  | _ => false

theorem begins_iff {id : String} {r : Report} : r.begins id = true ↔ r = .save (.ok id) := by
  unfold begins
  split <;> simp_all

end Session.Report

open Session (Report)

variable {c c' c'' : Client} {log more : List Report} {m : HostMessage}
  {outcome : Except SyncError Outcome} {now : Nat} {id : String} {due : Due}

namespace Client

-- ---------------------------------------------------------------------------
-- What a save is due
-- ---------------------------------------------------------------------------

@[simp] theorem owes_result_guardAfter (save : InFlightSave) :
    (guardAfter save now).owes .result = none := by
  unfold guardAfter
  split <;> rfl

@[simp] theorem owes_echo_guardAfter (save : InFlightSave) :
    (guardAfter save now).owes .echo = EchoGuard.owes .echo (.awaitingEcho save) := by
  cases hseen : save.echoSeen <;> simp [guardAfter, EchoGuard.owes, hseen]

theorem Handled.brings (h : c.Handled now m outcome c')
    (hb : (Report.message m outcome).brings id due = true) :
    c.guard.owes due = some id ∧ c'.guard.owes due = none := by
  cases h with
  | suppressed suppresses =>
    generalize c.guard = g, c'.guard = g' at suppresses
    cases due with
    | result => simp [Report.brings] at hb
    | echo =>
      simp only [Report.brings, beq_iff_eq] at hb
      cases suppresses with
      | first fresh => simp [EchoGuard.owes, fresh, hb]
      | late => simp [EchoGuard.owes, hb]
  | failed guard own idle | overtaken guard own _ idle =>
    cases due with
    | result =>
      simp only [Report.brings, beq_iff_eq] at hb
      simp [guard, idle, EchoGuard.owes, own, hb]
    | echo => simp [Report.brings] at hb
  | confirmed guard own _ after =>
    cases due with
    | result =>
      simp only [Report.brings, beq_iff_eq] at hb
      rw [after, owes_result_guardAfter, guard]
      exact ⟨congrArg some (own.trans hb), rfl⟩
    | echo => simp [Report.brings] at hb
  | replaced | stale | unloaded | catalog => cases due <;> simp [Report.brings] at hb

theorem Handled.owes (h : c.Handled now m outcome c') (ho : c'.guard.owes due = some id) :
    c.guard.owes due = some id := by
  cases h with
  | suppressed suppresses =>
    generalize c.guard = g, c'.guard = g' at suppresses ho
    cases suppresses <;> cases due <;> simp_all [EchoGuard.owes]
  | replaced passes =>
    generalize c.guard = g, c'.guard = g' at passes ho
    cases passes <;> cases due <;> simp_all [EchoGuard.owes]
  | stale => exact ho
  | failed _ _ idle | overtaken _ _ _ idle => cases due <;> simp [idle, EchoGuard.owes] at ho
  | confirmed guard _ _ after | unloaded guard _ _ after =>
    cases due with
    | result => simp [after] at ho
    | echo => simpa [guard, after] using ho
  | catalog guard => exact guard ▸ ho

-- ---------------------------------------------------------------------------
-- Counters
-- ---------------------------------------------------------------------------

structure Counted (c : Client) (log : List Report) (c' : Client) : Prop where
  confirmed : c'.status.savesConfirmed = c.status.savesConfirmed + log.countP Report.isConfirmed
  failed : c'.status.saveFailures = c.status.saveFailures + log.countP Report.isFailed
  suppressed :
    c'.status.echoesSuppressed = c.status.echoesSuppressed + log.countP Report.isSuppressed
  replaced : c'.status.externalChanges = c.status.externalChanges + log.countP Report.isReplaced

theorem Counted.trans (h : c.Counted log c') (h' : c'.Counted more c'') :
    c.Counted (log ++ more) c'' := by
  constructor
  · rw [h'.confirmed, h.confirmed, List.countP_append, Nat.add_assoc]
  · rw [h'.failed, h.failed, List.countP_append, Nat.add_assoc]
  · rw [h'.suppressed, h.suppressed, List.countP_append, Nat.add_assoc]
  · rw [h'.replaced, h.replaced, List.countP_append, Nat.add_assoc]

theorem counted_handle (c : Client) (m : HostMessage) (now : Nat) (hc : c.Grounded) :
    c.Counted [.message m (c.handle m now).1] (c.handle m now).2 := by
  cases m with
  | catalogUpdated feed => exact ⟨rfl, rfl, rfl, rfl⟩
  | changed d =>
    rcases EchoGuard.classify_cases c.guard d.digest c.config.echoTimeout now with
      ⟨id, matching, g', h, -⟩ | ⟨inbound, g', h, rfl | ⟨id, rfl⟩, -⟩
    all_goals
      simp only [handle, handleChanged, h, replace_eq, countExpired]
      exact ⟨rfl, rfl, rfl, rfl⟩
  | persistResult id ok e =>
    rcases settle_cases c.guard id with ⟨save, hg, rfl, hsettle⟩ | ⟨-, hsettle⟩
    · obtain ⟨l, hl⟩ := hc save hg
      cases ok with
      | false =>
        simp only [handle, handleResult, hsettle]
        exact ⟨rfl, rfl, rfl, rfl⟩
      | true =>
        cases hs : save.superseded with
        | true =>
          simp only [handle, handleResult, hsettle, hs]
          exact ⟨rfl, rfl, rfl, rfl⟩
        | false =>
          simp only [handle, handleResult_confirmed e now hg hs, Store.markSaved, hl]
          exact ⟨rfl, rfl, rfl, rfl⟩
    · simp only [handle, handleResult, hsettle]
      exact ⟨rfl, rfl, rfl, rfl⟩

theorem handle_other_result (ok : Bool) (e : Option HostError) (now : Nat)
    (other : ∀ save, c.guard = .awaitingEcho save → save.requestId ≠ id) :
    c.handle (.persistResult id ok e) now = (.ok (.staleResult id), c) := by
  rcases settle_cases c.guard id with ⟨save, guard, own, -⟩ | ⟨-, hsettle⟩
  · exact absurd own (other save guard)
  · simp only [handle, handleResult, hsettle]

theorem Handled.ok (h : c.Handled now m outcome c') (hc : c.Grounded) :
    ∃ o, outcome = .ok o := by
  cases h with
  | unloaded guard _ _ _ none =>
    obtain ⟨l, hl⟩ := hc _ guard
    cases none.symm.trans hl
  | _ => exact ⟨_, rfl⟩

end Client

namespace Session

variable {η : Type} {start s : Session η}

/-- A result or echo that was brought or is still to come is one of a save that was begun, and no
two saves have one id. -/
structure Balanced (id : String) (log : List Report) (g : EchoGuard) : Prop where
  once : log.countP (·.begins id) ≤ 1
  due : ∀ due, log.countP (·.brings id due) + (if g.owes due = some id then 1 else 0) ≤
    log.countP (·.begins id)

theorem Balanced.of_owes {g g' : EchoGuard} (h : Balanced id log g)
    (hg : ∀ due, g'.owes due = some id → g.owes due = some id) : Balanced id log g' := by
  refine ⟨h.once, fun due => ?_⟩
  have before := h.due due
  by_cases after : g'.owes due = some id
  · simpa [after, hg due after] using before
  · rw [if_neg after]
    omega

theorem Balanced.handled (h : Balanced id log c.guard) (hh : c.Handled now m outcome c') :
    Balanced id (log ++ [.message m outcome]) c'.guard := by
  have begins : (log ++ [Report.message m outcome]).countP (·.begins id) =
      log.countP (·.begins id) := by
    simp [List.countP_append, Report.begins]
  refine ⟨begins ▸ h.once, fun due => ?_⟩
  have before := h.due due
  rw [begins, List.countP_append, List.countP_singleton]
  by_cases hb : (Report.message m outcome).brings id due = true
  · obtain ⟨owed, met⟩ := hh.brings hb
    simpa [hb, owed, met] using before
  · rw [if_neg hb]
    exact (h.of_owes fun _ => hh.owes).due due

theorem brings_save (log : List Report) (r : Except SyncError String) (due : Due) :
    (log ++ [Report.save r]).countP (·.brings id due) = log.countP (·.brings id due) := by
  cases due <;> simp [List.countP_append, Report.brings]

theorem Balanced.declined {e : SyncError} {g : EchoGuard} (h : Balanced id log g) :
    Balanced id (log ++ [.save (.error e)]) g := by
  have begins : (log ++ [Report.save (.error e)]).countP (·.begins id) =
      log.countP (·.begins id) := by
    simp [List.countP_append, Report.begins]
  exact ⟨begins ▸ h.once, fun due => begins ▸ brings_save log _ due ▸ h.due due⟩

theorem Balanced.tried {r : Except SyncError String} (h : Balanced id log s.client.guard)
    (tried : s.Tried r c')
    (numbered : .save (.ok id) ∈ log → ∃ n ≤ s.client.counter, id = requestId n) :
    Balanced id (log ++ [.save r]) c'.guard := by
  cases tried with
  | declined _ _ guard =>
    rcases guard with guard | guard
    · exact (guard ▸ h).declined
    · exact (h.of_owes (by simp [guard, EchoGuard.owes])).declined
  | refused _ guard => exact (h.of_owes (by simp [guard, EchoGuard.owes])).declined
  | sent _ save own _ guard =>
    have begins : (log ++ [Report.save (.ok save.requestId)]).countP (·.begins id) =
        log.countP (·.begins id) + if save.requestId = id then 1 else 0 := by
      simp [List.countP_append, List.countP_singleton, Report.begins]
    by_cases hid : save.requestId = id
    · -- The id is a new one, so nothing was due under it.
      have fresh : log.countP (·.begins id) = 0 := by
        refine List.countP_eq_zero.mpr fun r hr hb => ?_
        obtain ⟨n, hn, hn'⟩ := numbered (Report.begins_iff.mp hb ▸ hr)
        have := requestId_inj.mp (own.symm.trans (hid.trans hn'))
        omega
      rw [if_pos hid, fresh] at begins
      refine ⟨Nat.le_of_eq begins, fun due => ?_⟩
      have before := h.due due
      rw [begins, brings_save]
      split <;> omega
    · rw [if_neg hid] at begins
      refine ⟨begins ▸ h.once, fun due => ?_⟩
      have before := h.due due
      have notOwed : c'.guard.owes due ≠ some id := by
        rw [guard]
        cases due with
        | result => simp [EchoGuard.owes, hid]
        | echo => simp [EchoGuard.owes, hid]
      rw [begins, brings_save, if_neg notOwed]
      omega

theorem Tried.counted {r : Except SyncError String} (h : s.Tried r c') :
    s.client.Counted [.save r] c' := by
  cases h with
  | @declined e c' expired reason _ _ _ status =>
    have hfailed : (Report.save (.error e)).isFailed = false := by
      cases e with
      | persist text => exact absurd rfl (reason text)
      | _ => rfl
    constructor <;>
      simp [status, Report.isConfirmed, Report.isSuppressed, Report.isReplaced, hfailed]
  | refused _ _ _ _ status => constructor <;> rw [status] <;> rfl
  | sent _ _ _ _ _ _ _ _ _ status => constructor <;> rw [status] <;> rfl

variable [Transport η]

theorem counted_load (s : Session η) (path : Option String) (now : Nat) :
    s.client.Counted [] (s.load path now).2.client := by
  obtain ⟨-, -, ⟨_, status⟩, -⟩ := load_frame s path now
  constructor <;> rw [status] <;> rfl

-- ---------------------------------------------------------------------------
-- Steps
-- ---------------------------------------------------------------------------

theorem Steps.balanced (steps : Steps start log s) (h : Balanced id [] start.client.guard) :
    Balanced id log s.client.guard := by
  induction steps with
  | start => exact h
  | edit _ _ ih | host _ _ ih => exact ih
  | @load log s path now _ ih =>
    obtain ⟨guard, -⟩ := load_frame s path now
    exact guard ▸ ih
  | beginSave now steps ih => exact ih.tried (tried_beginSave _ now) steps.numbered
  | handle m now _ ih => exact ih.handled (Client.handled_handle rfl)

theorem Steps.counted (steps : Steps start log s) (h : start.client.Grounded) :
    start.client.Counted log s.client := by
  induction steps with
  | start => exact ⟨rfl, rfl, rfl, rfl⟩
  | edit _ _ ih => exact ⟨ih.confirmed, ih.failed, ih.suppressed, ih.replaced⟩
  | host _ _ ih => exact ih
  | @load log s path now _ ih => simpa using ih.trans (counted_load s path now)
  | beginSave now _ ih => exact ih.trans (tried_beginSave _ now).counted
  | handle m now steps ih => exact ih.trans (Client.counted_handle _ m now (steps.grounded h))

/-- Whatever the host does, a save is settled at most once and echoed at most once. A result that is
not for the save in flight changes nothing, no message is an error, and the counters say what was
reported. -/
theorem Steps.accounted {store : Store} {config : SyncConfig} {host : η}
    (steps : Steps ⟨{ store, config }, host⟩ log s) :
    (∀ id, log.countP (·.begins id) ≤ 1 ∧
      ∀ due, log.countP (·.brings id due) ≤ log.countP (·.begins id)) ∧
    (∀ id ok e now, (∀ save, s.client.guard = .awaitingEcho save → save.requestId ≠ id) →
      s.client.handle (.persistResult id ok e) now = (.ok (.staleResult id), s.client)) ∧
    (∀ m now, ∃ outcome, (s.client.handle m now).1 = .ok outcome) ∧
    s.client.status.savesConfirmed = log.countP (·.isConfirmed) ∧
    s.client.status.saveFailures = log.countP (·.isFailed) ∧
    s.client.status.echoesSuppressed = log.countP (·.isSuppressed) ∧
    s.client.status.externalChanges = log.countP (·.isReplaced) := by
  have idle : (⟨{ store, config }, host⟩ : Session η).client.Grounded := Client.grounded_of_idle rfl
  have counted := steps.counted idle
  refine ⟨fun id => ?_, fun id ok e now other => ?_, fun m now => ?_, ?_⟩
  · have balanced : Balanced id log s.client.guard :=
      steps.balanced ⟨by simp, by simp [EchoGuard.owes]⟩
    exact ⟨balanced.once, fun due => by have := balanced.due due; omega⟩
  · exact Client.handle_other_result ok e now other
  · exact (Client.handled_handle rfl).ok (steps.grounded idle)
  · exact ⟨by simpa using counted.confirmed, by simpa using counted.failed,
      by simpa using counted.suppressed, by simpa using counted.replaced⟩

/-- A save is echoed, confirmed and confirmed again, then overtaken; the next one is not taken by
the host. -/
theorem accounted_second_refused :
    ∃ (store : Store) (config : SyncConfig) (host : ScriptHost) (log : List Report)
      (s : Session ScriptHost) (id : String),
      Steps ⟨{ store, config }, host⟩ log s ∧ log.length = 6 ∧
      log.countP (·.begins id) = 1 ∧
      (∀ due, log.countP (·.brings id due) = 1 ∧
        log.countP (·.brings id due) ≤ log.countP (·.begins id)) ∧
      s.client.handle (.persisted id) 3 = (.ok (.staleResult id), s.client) ∧
      (∃ outcome, (s.client.handle (.changed {}) 3).1 = .ok outcome) ∧
      (s.client.status.savesConfirmed = log.countP (·.isConfirmed) ∧
        s.client.status.savesConfirmed = 1) ∧
      (s.client.status.saveFailures = log.countP (·.isFailed) ∧
        s.client.status.saveFailures = 1) ∧
      (s.client.status.echoesSuppressed = log.countP (·.isSuppressed) ∧
        s.client.status.echoesSuppressed = 1) ∧
      (s.client.status.externalChanges = log.countP (·.isReplaced) ∧
        s.client.status.externalChanges = 1) := by
  let store : Store := { ids := ⟨fun _ => "new", 0⟩ }
  let saved : Document := { language := "da" }
  let other : Document := { language := "no" }
  let refusal : Except TransportError Unit := .error (.protocol "closed")
  let start : Session ScriptHost := ⟨{ store }, { submits := [.ok (), refusal] }⟩
  let id := requestId 1
  let seen : Client := {
    store := { store with loaded := some ⟨saved, saved, 0, false⟩ }
    guard := .awaitingEcho {
      requestId := id, digest := saved.digest, document := saved, armedAt := 0, echoSeen := true }
    counter := 1
    status := { echoesSuppressed := 1 } }
  let confirmed : Client := { seen with
    guard := .idle, status := { seen.status with savesConfirmed := 1, lastSavedAt := some 1 } }
  let replaced : Client := { confirmed with
    store := { store with loaded := some ⟨other, other, 1, false⟩ }
    status := { confirmed.status with externalChanges := 1, lastExternalChangeAt := some 2 } }
  let refused : Client := { replaced with
    counter := 2, status := { replaced.status with saveFailures := 1 } }
  have loaded : Steps start [] (start.edit (.load saved)) := Steps.start.edit _
  have echoed : Steps start
      [.save (.ok id), .message (.changed saved) (.ok (.echoSuppressed id))]
      ⟨seen, { submits := [refusal] }⟩ :=
    (loaded.beginSave 0).handle (.changed saved) 0
  have settled : Steps start
      [.save (.ok id), .message (.changed saved) (.ok (.echoSuppressed id)),
        .message (.persisted id) (.ok (.saveConfirmed id))]
      ⟨confirmed, { submits := [refusal] }⟩ :=
    echoed.handle (.persisted id) 1
  have steps : Steps start
      [.save (.ok id), .message (.changed saved) (.ok (.echoSuppressed id)),
        .message (.persisted id) (.ok (.saveConfirmed id)),
        .message (.persisted id) (.ok (.staleResult id)),
        .message (.changed other) (.ok (.externalReplaced (some 1) [])),
        .save (.error (.persist "Protocol error: closed"))]
      ⟨refused, {}⟩ :=
    ((settled.handle (.persisted id) 1).handle (.changed other) 2).beginSave 2
  obtain ⟨ids, stale, handled, confirmed, failed, suppressed, replaced⟩ := steps.accounted
  refine ⟨store, {}, _, _, _, id, steps, rfl, ?_, fun due => ⟨?_, (ids _).2 due⟩,
    stale _ _ _ _ nofun, handled _ _, ⟨confirmed, rfl⟩, ⟨failed, rfl⟩, ⟨suppressed, rfl⟩,
    ⟨replaced, rfl⟩⟩
  · simp [Report.begins]
  · cases due <;> simp [Report.brings]

end Session

end ShellSettings
