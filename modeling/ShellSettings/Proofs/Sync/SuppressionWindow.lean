import Mathlib.Data.List.Induction
import ShellSettings.Proofs.Sync.Outstanding

/-!
# The suppression window

Which change the guard takes for an echo is told here by all that was done to it before
(`EchoGuard.echo_iff_awaited`): the last save armed still awaits its echo, in the same wait
since it was armed or since its result came, and the wait is younger than the timeout. What a
session does to its guard is such a history (`Session.Steps.guard_run`).
-/

namespace ShellSettings

structure ArmedSave where
  requestId : String
  digest : String
  document : Document
  armedAt : Nat

def ArmedSave.inFlight (save : ArmedSave) : InFlightSave where
  requestId := save.requestId
  digest := save.digest
  document := save.document
  armedAt := save.armedAt

inductive GuardEvent where
  | arm (save : ArmedSave)
  -- A result after which no echo is awaited.
  | settle (requestId : String)
  -- A result after which the echo is still awaited, if the result is of the save in flight and no
  -- change has come since that was armed.
  | confirm (requestId : String) (now : Nat)
  | expire (now : Nat)
  | classify (digest : Option String) (now : Nat)

namespace EchoGuard

def step (timeout : Option Nat) (g : EchoGuard) : GuardEvent → EchoGuard
  | .arm save => .arm save.inFlight
  | .settle id => (g.settle id).2
  | .confirm id now =>
    match g.settle id with
    | (none, g) => g
    | (some save, g) => if save.echoSeen then g else g.awaitLateEcho save now
  | .expire now => (g.expire timeout now).2
  | .classify digest now => (g.classify digest timeout now).2

def run (timeout : Option Nat) (events : List GuardEvent) : EchoGuard :=
  events.foldl (step timeout) .idle

end EchoGuard

-- ---------------------------------------------------------------------------
-- Awaiting an echo
-- ---------------------------------------------------------------------------

/-- A wait is younger than the timeout. One that begins only later has no age yet. -/
def Timely (timeout : Option Nat) (since now : Nat) : Prop := ∀ limit ∈ timeout, now - since < limit

/-- What a wait that began at that time outlives: no save is armed, no change comes, and whenever a
stale wait is looked for, this one is not. -/
def GuardEvent.Leaves (timeout : Option Nat) (since : Nat) : GuardEvent → Prop
  | .arm _ | .classify .. => False
  | .settle _ | .confirm .. => True
  | .expire now => Timely timeout since now

def GuardEvent.Settles (requestId : String) : GuardEvent → Prop
  | .settle id | .confirm id _ => id = requestId
  | .arm _ | .expire _ | .classify .. => False

/-- The save was armed last, and has not been settled since. -/
def AwaitsEcho (timeout : Option Nat) (history : List GuardEvent) (save : ArmedSave) : Prop :=
  ∃ before after, history = before ++ .arm save :: after ∧
    ∀ e ∈ after, e.Leaves timeout save.armedAt ∧ ¬ e.Settles save.requestId

/-- The save was settled while it awaited its echo, and has awaited that since. -/
def AwaitsLateEcho (timeout : Option Nat) (history : List GuardEvent) (save : ArmedSave)
    (settledAt : Nat) : Prop :=
  ∃ before after, history = before ++ .confirm save.requestId settledAt :: after ∧
    AwaitsEcho timeout before save ∧ ∀ e ∈ after, e.Leaves timeout settledAt

/-- A change at that time is taken for the echo of the save. Once the save is settled, only a change
with the digest saved is. -/
def Awaited (timeout : Option Nat) (history : List GuardEvent) (digest : Option String) (now : Nat)
    (save : ArmedSave) : Prop :=
  (AwaitsEcho timeout history save ∧ Timely timeout save.armedAt now) ∨
    ∃ settledAt, AwaitsLateEcho timeout history save settledAt ∧ Timely timeout settledAt now ∧
      digest = some save.digest

section

variable {timeout : Option Nat} {history : List GuardEvent} {event : GuardEvent} {save : ArmedSave}
  {settledAt : Nat}

/-- What has held since an event holds after one more if that keeps it, or is the event. -/
theorem since_concat {split : GuardEvent} {P : List GuardEvent → Prop} {K : GuardEvent → Prop} :
    (∃ before after, history ++ [event] = before ++ split :: after ∧ P before ∧ ∀ e ∈ after, K e) ↔
      (event = split ∧ P history) ∨
        (∃ before after, history = before ++ split :: after ∧ P before ∧ ∀ e ∈ after, K e) ∧
          K event := by
  constructor
  · rintro ⟨before, after, h, hbefore, hafter⟩
    -- The last event of the history is the one it is split at, or the last of those after that.
    rcases List.eq_nil_or_concat after with rfl | ⟨rest, last, rfl⟩
    · obtain ⟨rfl, hsplit⟩ := List.append_inj' h rfl
      exact .inl ⟨List.singleton_inj.mp hsplit, hbefore⟩
    · have h' : history ++ [event] = (before ++ split :: rest) ++ [last] := by simpa using h
      obtain ⟨rfl, hlast⟩ := List.append_inj' h' rfl
      cases List.singleton_inj.mp hlast
      rw [List.concat_eq_append, List.forall_mem_append, List.forall_mem_singleton] at hafter
      exact .inr ⟨⟨before, rest, rfl, hbefore, hafter.1⟩, hafter.2⟩
  · rintro (⟨rfl, hhistory⟩ | ⟨⟨before, rest, rfl, hbefore, hrest⟩, hevent⟩)
    · exact ⟨history, [], rfl, hhistory, List.forall_mem_nil _⟩
    · refine ⟨before, rest ++ [event], by simp, hbefore, ?_⟩
      rw [List.forall_mem_append, List.forall_mem_singleton]
      exact ⟨hrest, hevent⟩

theorem not_awaitsEcho_nil : ¬ AwaitsEcho timeout [] save := by
  rintro ⟨before, after, h, -⟩
  simp at h

theorem not_awaitsLateEcho_nil : ¬ AwaitsLateEcho timeout [] save settledAt := by
  rintro ⟨before, after, h, -⟩
  simp at h

theorem awaitsEcho_concat : AwaitsEcho timeout (history ++ [event]) save ↔
    event = .arm save ∨
      AwaitsEcho timeout history save ∧ event.Leaves timeout save.armedAt ∧
        ¬ event.Settles save.requestId := by
  simpa only [AwaitsEcho, true_and, and_true] using since_concat (P := fun _ => True)

theorem awaitsLateEcho_concat : AwaitsLateEcho timeout (history ++ [event]) save settledAt ↔
    (event = .confirm save.requestId settledAt ∧ AwaitsEcho timeout history save) ∨
      AwaitsLateEcho timeout history save settledAt ∧ event.Leaves timeout settledAt :=
  since_concat

end

namespace EchoGuard

variable {timeout : Option Nat} {g g' : EchoGuard} {event : GuardEvent}
  {history : List GuardEvent} {save : InFlightSave} {late : SettledSave} {id : String}
  {digest : Option String} {now : Nat}

-- ---------------------------------------------------------------------------
-- One event
-- ---------------------------------------------------------------------------

theorem expire_timely_cases (g : EchoGuard) (timeout : Option Nat) (now : Nat) :
    (g.expire timeout now = (none, g) ∧
      ∀ id since, g.waiting? = some (id, since) → Timely timeout since now) ∨
    ∃ id since, g.expire timeout now = (some id, .idle) ∧ g.waiting? = some (id, since) ∧
      ¬ Timely timeout since now := by
  unfold expire
  split
  · rename_i id since limit hg
    split
    · rename_i hyoung
      refine .inl ⟨rfl, fun _ _ hg' limit' hlimit => ?_⟩
      cases hg.symm.trans hg'
      cases hlimit
      exact hyoung
    · rename_i hold
      exact .inr ⟨id, since, rfl, hg, fun htimely => hold (htimely limit rfl)⟩
  · rename_i hnot
    refine .inl ⟨rfl, fun id since hg limit hlimit => ?_⟩
    exact absurd hlimit (hnot id since limit hg)

theorem waiting?_awaitingEcho (save : InFlightSave) :
    (awaitingEcho save).waiting? = some (save.requestId, save.armedAt) := rfl

theorem waiting?_awaitingLateEcho (late : SettledSave) :
    (awaitingLateEcho late).waiting? = some (late.requestId, late.settledAt) := rfl

theorem expire_eq_iff {since : Nat} (waits : g'.waiting? = some (id, since)) :
    (g.expire timeout now).2 = g' ↔ g = g' ∧ Timely timeout since now := by
  rcases expire_timely_cases g timeout now with ⟨h, htimely⟩ | ⟨id', since', h, hg, hstale⟩
  · rw [h]
    constructor
    · rintro rfl
      exact ⟨rfl, htimely id since waits⟩
    · exact And.left
  · rw [h]
    constructor
    · rintro rfl
      cases waits
    · rintro ⟨rfl, htimely⟩
      cases hg.symm.trans waits
      exact absurd htimely hstale

theorem settle_eq_iff (waits : g' ≠ .idle) :
    (g.settle id).2 = g' ↔ g = g' ∧ ∀ save, g' = .awaitingEcho save → save.requestId ≠ id := by
  rcases Client.settle_cases g id with ⟨save, rfl, own, h⟩ | ⟨other, h⟩
  · rw [h]
    constructor
    · rintro rfl
      exact absurd rfl waits
    · rintro ⟨rfl, hother⟩
      exact absurd own (hother save rfl)
  · rw [h]
    constructor
    · rintro rfl
      exact ⟨rfl, other⟩
    · exact And.left

theorem step_confirm_eq_iff (waits : g' ≠ .idle) :
    g.step timeout (.confirm id now) = g' ↔
      (g = g' ∧ ∀ save, g' = .awaitingEcho save → save.requestId ≠ id) ∨
      ∃ save, g = .awaitingEcho save ∧ save.echoSeen = false ∧ save.requestId = id ∧
        g' = .awaitingLateEcho ⟨save.requestId, save.digest, now⟩ := by
  rcases Client.settle_cases g id with ⟨save, rfl, own, h⟩ | ⟨other, h⟩
  · simp only [step, h]
    constructor
    · intro hg
      split at hg
      · exact absurd hg.symm waits
      · rename_i fresh
        exact .inr ⟨save, rfl, Bool.eq_false_iff.mpr fresh, own, hg.symm⟩
    · rintro (⟨rfl, hother⟩ | ⟨save, hg, fresh, -, rfl⟩)
      · exact absurd own (hother save rfl)
      · cases hg
        rw [fresh]
        rfl
  · simp only [step, h]
    constructor
    · rintro rfl
      exact .inl ⟨rfl, other⟩
    · rintro (⟨rfl, -⟩ | ⟨save, rfl, -, own, -⟩)
      · rfl
      · exact absurd own (other save rfl)

theorem classify_cases_after (g : EchoGuard) (timeout : Option Nat) (digest : Option String)
    (now : Nat) : (g.classify digest timeout now).2 = .idle ∨
      ∃ save, save.echoSeen = true ∧ (g.classify digest timeout now).2 = .awaitingEcho save := by
  unfold classify
  rcases expire_timely_cases g timeout now with ⟨h, -⟩ | ⟨id, since, h, -⟩
  · rw [h]
    cases g with
    | idle | awaitingLateEcho => exact .inl rfl
    | awaitingEcho save =>
      simp only [classifyFresh]
      split
      · rename_i seen
        exact .inr ⟨{ save with superseded := true }, seen, rfl⟩
      · exact .inr ⟨{ save with echoSeen := true }, rfl, rfl⟩
  · rw [h]
    exact .inl rfl

theorem step_eq_awaitingEcho_iff (fresh : save.echoSeen = false) :
    g.step timeout event = .awaitingEcho save ↔
      (∃ armed, event = .arm armed ∧ armed.inFlight = save) ∨
        g = .awaitingEcho save ∧ event.Leaves timeout save.armedAt ∧
          ¬ event.Settles save.requestId := by
  cases event with
  | arm armed => simp [step, arm, GuardEvent.Leaves]
  | settle id =>
    refine (settle_eq_iff (by simp)).trans ?_
    simp [GuardEvent.Leaves, GuardEvent.Settles, eq_comm (a := id)]
  | confirm id now =>
    refine (step_confirm_eq_iff (by simp)).trans ?_
    simp [GuardEvent.Leaves, GuardEvent.Settles, eq_comm (a := id)]
  | expire now =>
    rw [step, expire_eq_iff (waiting?_awaitingEcho save)]
    simp [GuardEvent.Leaves, GuardEvent.Settles]
  | classify digest now =>
    have hne : (g.classify digest timeout now).2 ≠ .awaitingEcho save := by
      intro hg
      rcases classify_cases_after g timeout digest now with h | ⟨other, seen, h⟩
      · cases hg.symm.trans h
      · cases hg.symm.trans h
        simp [fresh] at seen
    simp [step, hne, GuardEvent.Leaves]

theorem step_eq_awaitingLateEcho_iff :
    g.step timeout event = .awaitingLateEcho late ↔
      (∃ save, g = .awaitingEcho save ∧ save.echoSeen = false ∧
        event = .confirm save.requestId late.settledAt ∧
        late = ⟨save.requestId, save.digest, late.settledAt⟩) ∨
      g = .awaitingLateEcho late ∧ event.Leaves timeout late.settledAt := by
  cases event with
  | arm armed => simp [step, arm, GuardEvent.Leaves]
  | settle id =>
    refine (settle_eq_iff (by simp)).trans ?_
    simp [GuardEvent.Leaves]
  | confirm id now =>
    refine (step_confirm_eq_iff (by simp)).trans ?_
    constructor
    · rintro (⟨rfl, -⟩ | ⟨save, rfl, fresh, rfl, hlate⟩)
      · exact .inr ⟨rfl, trivial⟩
      · cases hlate
        exact .inl ⟨save, rfl, fresh, rfl, rfl⟩
    · rintro (⟨save, rfl, fresh, hevent, hlate⟩ | ⟨rfl, -⟩)
      · cases hevent
        exact .inr ⟨save, rfl, fresh, rfl, congrArg _ hlate⟩
      · exact .inl ⟨rfl, by simp⟩
  | expire now =>
    rw [step, expire_eq_iff (waiting?_awaitingLateEcho late)]
    simp [GuardEvent.Leaves]
  | classify digest now =>
    have hne : (g.classify digest timeout now).2 ≠ .awaitingLateEcho late := by
      intro hg
      rcases classify_cases_after g timeout digest now with h | ⟨other, -, h⟩
      · cases hg.symm.trans h
      · cases hg.symm.trans h
    simp [step, hne, GuardEvent.Leaves]

-- ---------------------------------------------------------------------------
-- Histories
-- ---------------------------------------------------------------------------

theorem run_concat (timeout : Option Nat) (history : List GuardEvent) (event : GuardEvent) :
    run timeout (history ++ [event]) = (run timeout history).step timeout event := by
  simp [run]

theorem run_eq_awaitingEcho_iff (fresh : save.echoSeen = false) :
    run timeout history = .awaitingEcho save ↔
      ∃ armed, AwaitsEcho timeout history armed ∧ armed.inFlight = save := by
  induction history using List.reverseRecOn with
  | nil => simp [run, not_awaitsEcho_nil]
  | append_singleton history event ih =>
    rw [run_concat, step_eq_awaitingEcho_iff fresh, ih]
    simp only [awaitsEcho_concat]
    constructor
    · rintro (⟨armed, rfl, harmed⟩ | ⟨⟨armed, hawaits, rfl⟩, hleaves⟩)
      · exact ⟨armed, .inl rfl, harmed⟩
      · exact ⟨armed, .inr ⟨hawaits, hleaves⟩, rfl⟩
    · rintro ⟨armed, rfl | ⟨hawaits, hleaves⟩, rfl⟩
      · exact .inl ⟨armed, rfl, rfl⟩
      · exact .inr ⟨⟨armed, hawaits, rfl⟩, hleaves⟩

theorem run_eq_awaitingLateEcho_iff :
    run timeout history = .awaitingLateEcho late ↔
      ∃ armed, AwaitsLateEcho timeout history armed late.settledAt ∧
        late = ⟨armed.requestId, armed.digest, late.settledAt⟩ := by
  induction history using List.reverseRecOn with
  | nil => simp [run, not_awaitsLateEcho_nil]
  | append_singleton history event ih =>
    rw [run_concat, step_eq_awaitingLateEcho_iff, ih]
    simp only [awaitsLateEcho_concat]
    constructor
    · rintro (⟨save, hg, fresh, hevent, hlate⟩ | ⟨⟨armed, hawaits, hlate⟩, hleaves⟩)
      · obtain ⟨armed, hawaits, rfl⟩ := (run_eq_awaitingEcho_iff fresh).mp hg
        exact ⟨armed, .inl ⟨hevent, hawaits⟩, hlate⟩
      · exact ⟨armed, .inr ⟨hawaits, hleaves⟩, hlate⟩
    · rintro ⟨armed, ⟨hevent, hawaits⟩ | ⟨hawaits, hleaves⟩, hlate⟩
      · exact .inl ⟨armed.inFlight, (run_eq_awaitingEcho_iff rfl).mpr ⟨armed, hawaits, rfl⟩, rfl,
          hevent, hlate⟩
      · exact .inr ⟨⟨armed, hawaits, hlate⟩, hleaves⟩

-- ---------------------------------------------------------------------------
-- Changes
-- ---------------------------------------------------------------------------

theorem classify_eq_echo_iff {matching : Bool} :
    (g.classify digest timeout now).1 = .echo id matching ↔
      (∃ save, g = .awaitingEcho save ∧ save.echoSeen = false ∧ Timely timeout save.armedAt now ∧
        save.requestId = id ∧ matching = (digest == some save.digest)) ∨
      ∃ late, g = .awaitingLateEcho late ∧ Timely timeout late.settledAt now ∧
        late.requestId = id ∧ digest = some late.digest ∧
        matching = (digest == some late.digest) := by
  unfold classify
  rcases expire_timely_cases g timeout now with ⟨h, htimely⟩ | ⟨id', since, h, hg, hstale⟩
  · rw [h]
    cases g with
    | idle => simp [classifyFresh]
    | awaitingEcho save =>
      have hyoung : Timely timeout save.armedAt now := htimely _ _ rfl
      simp only [classifyFresh]
      split
      · rename_i seen
        simp [seen]
      · rename_i fresh
        constructor
        · rintro ⟨⟩
          exact .inl ⟨save, rfl, Bool.eq_false_iff.mpr fresh, hyoung, rfl, rfl⟩
        · rintro (⟨_, ⟨⟩, -, -, rfl, rfl⟩ | ⟨_, ⟨⟩, -⟩)
          rfl
    | awaitingLateEcho late =>
      have hyoung : Timely timeout late.settledAt now := htimely _ _ rfl
      simp only [classifyFresh, beq_iff_eq]
      split
      · rename_i hdigest
        constructor
        · rintro ⟨⟩
          exact .inr ⟨late, rfl, hyoung, rfl, hdigest, by simp [hdigest]⟩
        · rintro (⟨_, ⟨⟩, -⟩ | ⟨_, ⟨⟩, -, rfl, -, rfl⟩)
          simp [hdigest]
      · rename_i hdigest
        constructor
        · rintro ⟨⟩
        · rintro (⟨_, ⟨⟩, -⟩ | ⟨_, ⟨⟩, -, -, hdigest', -⟩)
          exact absurd hdigest' hdigest
  · -- A guard that is stale takes nothing for an echo, and neither wait is timely.
    rw [h]
    constructor
    · rintro ⟨⟩
    · rintro (⟨save, rfl, -, htimely, -⟩ | ⟨late, rfl, htimely, -⟩)
      · cases hg
        exact absurd htimely hstale
      · cases hg
        exact absurd htimely hstale

/-- Whatever was done to the guard, and at whatever times: a change is taken for the echo of a save
exactly if it is awaited as that, and for a genuine one otherwise. -/
theorem echo_iff_awaited (timeout : Option Nat) (history : List GuardEvent)
    (digest : Option String) (now : Nat) :
    let inbound := ((run timeout history).classify digest timeout now).1
    (∀ id matching, inbound = .echo id matching ↔
      ∃ save, Awaited timeout history digest now save ∧ save.requestId = id ∧
        matching = (digest == some save.digest)) ∧
    ((inbound = .external ∨ ∃ id, inbound = .externalAfterExpiry id) ↔
      ¬ ∃ save, Awaited timeout history digest now save) := by
  intro inbound
  have hecho : ∀ id matching, inbound = .echo id matching ↔
      ∃ save, Awaited timeout history digest now save ∧ save.requestId = id ∧
        matching = (digest == some save.digest) := by
    intro id matching
    refine classify_eq_echo_iff.trans ?_
    constructor
    · rintro (⟨save, hg, fresh, htimely, rfl, rfl⟩ | ⟨late, hg, htimely, rfl, hdigest, rfl⟩)
      · obtain ⟨armed, hawaits, rfl⟩ := (run_eq_awaitingEcho_iff fresh).mp hg
        exact ⟨armed, .inl ⟨hawaits, htimely⟩, rfl, rfl⟩
      · obtain ⟨armed, hawaits, hlate⟩ := run_eq_awaitingLateEcho_iff.mp hg
        rw [hlate] at hdigest ⊢
        exact ⟨armed, .inr ⟨late.settledAt, hawaits, htimely, hdigest⟩, rfl, rfl⟩
    · rintro ⟨save, ⟨hawaits, htimely⟩ | ⟨settledAt, hawaits, htimely, hdigest⟩, rfl, rfl⟩
      · have hg : run timeout history = .awaitingEcho save.inFlight :=
          (run_eq_awaitingEcho_iff rfl).mpr ⟨save, hawaits, rfl⟩
        exact .inl ⟨save.inFlight, hg, rfl, htimely, rfl, rfl⟩
      · have hg : run timeout history =
            .awaitingLateEcho ⟨save.requestId, save.digest, settledAt⟩ :=
          run_eq_awaitingLateEcho_iff.mpr ⟨save, hawaits, rfl⟩
        exact .inr ⟨_, hg, htimely, rfl, hdigest, rfl⟩
  refine ⟨hecho, ?_⟩
  constructor
  · rintro hexternal ⟨save, hawaited⟩
    have h := (hecho save.requestId _).mpr ⟨save, hawaited, rfl, rfl⟩
    rcases hexternal with h' | ⟨id, h'⟩
    · cases h.symm.trans h'
    · cases h.symm.trans h'
  · intro hnone
    cases h : inbound with
    | echo id matching =>
      obtain ⟨save, hawaited, -⟩ := (hecho id matching).mp h
      exact absurd ⟨save, hawaited⟩ hnone
    | external => exact .inl rfl
    | externalAfterExpiry id => exact .inr ⟨id, rfl⟩

end EchoGuard

-- ---------------------------------------------------------------------------
-- Sessions
-- ---------------------------------------------------------------------------

open EchoGuard

theorem Client.guard_handle (c : Client) (m : HostMessage) (now : Nat) :
    ∃ events : List GuardEvent,
      (c.handle m now).2.guard = events.foldl (step c.config.echoTimeout) c.guard := by
  cases m with
  | catalogUpdated feed => exact ⟨[], rfl⟩
  | changed d =>
    refine ⟨[.classify (some d.digest) now], ?_⟩
    simp only [handle, handleChanged, List.foldl_cons, List.foldl_nil, step]
    split
    all_goals
      rename_i h
      exact (congrArg Prod.snd h).symm
  | persistResult id ok e =>
    simp only [handle, handleResult]
    split
    · exact ⟨[], rfl⟩
    · rename_i save g h
      -- The save is no longer in flight; whether its echo is awaited depends on the result.
      split
      · exact ⟨[.settle id], by simp [step, h, countFailed]⟩
      · split
        · exact ⟨[.settle id], by simp [step, h, countConfirmed]⟩
        · refine ⟨[.confirm id now], ?_⟩
          simp only [List.foldl_cons, List.foldl_nil, step, h]
          cases hseen : save.echoSeen <;> cases hm : c.store.markSaved save.document <;>
            simp [hm, countConfirmed]

namespace Session

variable {η : Type} {start s : Session η} {log : List Report}

theorem guard_expireGuard (c : Client) (now : Nat) :
    (expireGuard c now).guard = c.guard.step c.config.echoTimeout (.expire now) := by
  rcases expire_cases c.guard c.config.echoTimeout now with h | ⟨id, h, -⟩
  all_goals simp only [expireGuard, step, h, Client.countExpired]

variable [Transport η]

/-- A save clears a stale guard first. One that is not handed over is forgotten at once. -/
theorem guard_beginSave (s : Session η) (now : Nat) : ∃ events : List GuardEvent,
    (s.beginSave now).2.client.guard =
      events.foldl (step s.client.config.echoTimeout) s.client.guard := by
  unfold beginSave
  dsimp only
  split
  · exact ⟨[.expire now], guard_expireGuard s.client now⟩
  · split
    · exact ⟨[.expire now], guard_expireGuard s.client now⟩
    · rename_i d hget
      let armed : ArmedSave :=
        ⟨(expireGuard s.client now).nextRequest.1, d.digest, d, now⟩
      split
      · exact ⟨[.expire now, .arm armed, .settle armed.requestId], by
          simp [step, arm, settle, ArmedSave.inFlight, Client.countFailed]⟩
      · exact ⟨[.expire now, .arm armed], rfl⟩

theorem Steps.guard_run (steps : Steps start log s) (idle : start.client.guard = .idle) :
    ∃ history, s.client.guard = EchoGuard.run start.client.config.echoTimeout history := by
  have extended : ∀ {timeout history g} (events : List GuardEvent),
      g = EchoGuard.run timeout history →
        ∃ history, events.foldl (step timeout) g = EchoGuard.run timeout history := by
    rintro timeout history g events rfl
    exact ⟨history ++ events, by simp [EchoGuard.run]⟩
  induction steps with
  | start => exact ⟨[], idle⟩
  | edit _ _ ih | host _ _ ih => exact ih
  | @load log s path now _ ih =>
    rw [(load_frame s path now).1]
    exact ih
  | @beginSave log s now steps ih =>
    obtain ⟨history, hg⟩ := ih
    obtain ⟨events, hevents⟩ := guard_beginSave s now
    rw [hevents, steps.config_eq]
    exact extended events hg
  | @handle log s m now steps ih =>
    obtain ⟨history, hg⟩ := ih
    obtain ⟨events, hevents⟩ := s.client.guard_handle m now
    rw [hevents, steps.config_eq]
    exact extended events hg

end Session

end ShellSettings
