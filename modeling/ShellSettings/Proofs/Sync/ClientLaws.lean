import ShellSettings.Proofs.Host.MemoryLaws
import ShellSettings.Proofs.Store.EditLaws
import ShellSettings.Sync.Session

/-!
# What a message, a save and a load can do

One relation for each way in which a session moves: `Client.Handled` for a
message taken in, `Session.Begun` for a save handed over, `Session.Fetched` for a
load. Each lists every case with all that it changes of guard and store, so
that an invariant is shown case by case without opening the client again.
-/

namespace ShellSettings

namespace EchoGuard

variable {g g' : EchoGuard} {timeout : Option Nat} {digest : String} {now : Nat}

inductive Suppresses : EchoGuard → String → String → EchoGuard → Prop
  | first {save : InFlightSave} {digest : String} (fresh : save.echoSeen = false) :
    Suppresses (.awaitingEcho save) digest save.requestId
      (.awaitingEcho { save with echoSeen := true })
  | late {late : SettledSave} {digest : String} (digest_eq : digest = late.digest) :
    Suppresses (.awaitingLateEcho late) digest late.requestId .idle

inductive Passes (timeout : Option Nat) : EchoGuard → String → EchoGuard → Prop
  | idle {digest : String} : Passes timeout .idle digest .idle
  | second {save : InFlightSave} {digest : String} (seen : save.echoSeen = true) :
    Passes timeout (.awaitingEcho save) digest (.awaitingEcho { save with superseded := true })
  | other {late : SettledSave} {digest : String} (digest_ne : digest ≠ late.digest) :
    Passes timeout (.awaitingLateEcho late) digest .idle
  | stale {g : EchoGuard} {digest : String} (timed : timeout ≠ none) : Passes timeout g digest .idle

theorem expire_cases (g : EchoGuard) (timeout : Option Nat) (now : Nat) :
    g.expire timeout now = (none, g) ∨
      ∃ id, g.expire timeout now = (some id, .idle) ∧ timeout ≠ none := by
  unfold expire
  split
  · split
    · exact .inl rfl
    · exact .inr ⟨_, rfl, nofun⟩
  · exact .inl rfl

theorem classify_cases (g : EchoGuard) (digest : String) (timeout : Option Nat) (now : Nat) :
    (∃ id matching g', g.classify (some digest) timeout now = (.echo id matching, g') ∧
      g.Suppresses digest id g') ∨
    ∃ inbound g', g.classify (some digest) timeout now = (inbound, g') ∧
      (inbound = .external ∨ ∃ id, inbound = .externalAfterExpiry id) ∧
      g.Passes timeout digest g' := by
  unfold classify
  rcases expire_cases g timeout now with h | ⟨id, h, ht⟩
  · rw [h]
    simp only [classifyFresh]
    cases g with
    | idle => exact .inr ⟨_, _, rfl, .inl rfl, .idle⟩
    | awaitingEcho save =>
      dsimp only
      split
      · rename_i seen
        exact .inr ⟨_, _, rfl, .inl rfl, .second seen⟩
      · rename_i fresh
        exact .inl ⟨_, _, _, rfl, .first (Bool.eq_false_iff.mpr fresh)⟩
    | awaitingLateEcho late =>
      dsimp only
      by_cases hd : digest = late.digest
      · rw [if_pos (by simp [hd])]
        exact .inl ⟨_, _, _, rfl, .late hd⟩
      · rw [if_neg (by simp [hd])]
        exact .inr ⟨_, _, rfl, .inl rfl, .other hd⟩
  · rw [h]
    exact .inr ⟨_, _, rfl, .inr ⟨id, rfl⟩, .stale ht⟩

end EchoGuard

-- ---------------------------------------------------------------------------
-- Messages
-- ---------------------------------------------------------------------------

namespace Client

structure Kept (c c' : Client) : Prop where
  config : c'.config = c.config
  externalChanges : c'.status.externalChanges = c.status.externalChanges

/-- The guard after a save is confirmed that no other change has overtaken. -/
def guardAfter (save : InFlightSave) (now : Nat) : EchoGuard :=
  if save.echoSeen then .idle else .awaitingLateEcho ⟨save.requestId, save.digest, now⟩

/-- Every way in which a client takes in a message. -/
inductive Handled (c : Client) (now : Nat) :
    HostMessage → Except SyncError Outcome → Client → Prop
  | suppressed {d id c'} (guard : c.guard.Suppresses d.digest id c'.guard)
    (store : c'.store = c.store) (kept : c.Kept c') :
    Handled c now (.changed d) (.ok (.echoSuppressed id)) c'
  | replaced {d revision dropped c'}
    (guard : c.guard.Passes c.config.echoTimeout d.digest c'.guard)
    (store : c'.store = (c.store.install d).1) (config : c'.config = c.config)
    (counted : c'.status.externalChanges = c.status.externalChanges + 1) :
    Handled c now (.changed d) (.ok (.externalReplaced revision dropped)) c'
  | stale {id ok e} (guard : ∀ save, c.guard = .awaitingEcho save → save.requestId ≠ id) :
    Handled c now (.persistResult id ok e) (.ok (.staleResult id)) c
  | failed {save id e error c'} (guard : c.guard = .awaitingEcho save)
    (own : save.requestId = id) (idle : c'.guard = .idle) (store : c'.store = c.store)
    (kept : c.Kept c') :
    Handled c now (.persistResult id false e) (.ok (.saveFailed id error)) c'
  | overtaken {save id e c'} (guard : c.guard = .awaitingEcho save) (own : save.requestId = id)
    (superseded : save.superseded = true) (idle : c'.guard = .idle) (store : c'.store = c.store)
    (kept : c.Kept c') :
    Handled c now (.persistResult id true e) (.ok (.saveConfirmed id)) c'
  | confirmed {save id e c'} (guard : c.guard = .awaitingEcho save) (own : save.requestId = id)
    (superseded : save.superseded = false) (after : c'.guard = guardAfter save now)
    (store : c.store.markSaved save.document = .ok c'.store) (kept : c.Kept c') :
    Handled c now (.persistResult id true e) (.ok (.saveConfirmed id)) c'
  | unloaded {save id e c'} (guard : c.guard = .awaitingEcho save) (own : save.requestId = id)
    (superseded : save.superseded = false) (after : c'.guard = guardAfter save now)
    (none : c.store.loaded = none) (store : c'.store = c.store) (kept : c.Kept c') :
    Handled c now (.persistResult id true e) (.error (.store .unloaded)) c'
  | catalog {feed dropped c'} (guard : c'.guard = c.guard)
    (store : c'.store = (c.store.applyCatalog feed).1) (kept : c.Kept c') :
    Handled c now (.catalogUpdated feed) (.ok (.catalogApplied feed.kind dropped)) c'

variable {c c' : Client} {m : HostMessage} {outcome : Except SyncError Outcome} {now : Nat}

theorem replace_eq (c : Client) (d : Document) (now : Nat) :
    c.replace d now =
      (.externalReplaced (c.store.install d).1.revision (c.store.install d).2,
        { c with
          store := (c.store.install d).1
          status := { c.status with
            externalChanges := c.status.externalChanges + 1,
            lastExternalChangeAt := some now } }) :=
  rfl

theorem handled_changed (c : Client) (d : Document) (now : Nat) :
    c.Handled now (.changed d) (c.handle (.changed d) now).1 (c.handle (.changed d) now).2 := by
  rcases EchoGuard.classify_cases c.guard d.digest c.config.echoTimeout now with
    ⟨id, matching, g', h, suppresses⟩ | ⟨inbound, g', h, rfl | ⟨id, rfl⟩, passes⟩
  all_goals simp only [handle, handleChanged, h, replace_eq]
  · exact .suppressed suppresses rfl ⟨rfl, rfl⟩
  · exact .replaced passes rfl rfl rfl
  · exact .replaced passes rfl rfl rfl

theorem settle_cases (g : EchoGuard) (id : String) :
    (∃ save, g = .awaitingEcho save ∧ save.requestId = id ∧ g.settle id = (some save, .idle)) ∨
      (∀ save, g = .awaitingEcho save → save.requestId ≠ id) ∧ g.settle id = (none, g) := by
  cases g with
  | awaitingEcho save =>
    by_cases h : save.requestId = id
    · exact .inl ⟨save, rfl, h, by simp [EchoGuard.settle, h]⟩
    · refine .inr ⟨?_, by simp [EchoGuard.settle, h]⟩
      intro other hother
      cases hother
      exact h
  | idle | awaitingLateEcho => exact .inr ⟨fun _ h => (nomatch h), rfl⟩

theorem handleResult_confirmed {save : InFlightSave} (e : Option HostError) (now : Nat)
    (hg : c.guard = .awaitingEcho save) (hs : save.superseded = false) :
    c.handleResult save.requestId true e now =
      match c.store.markSaved save.document with
      | .error e => (.error (.store e), { c with guard := guardAfter save now })
      | .ok store => (.ok (.saveConfirmed save.requestId),
          { c with guard := guardAfter save now, store }.countConfirmed now) := by
  cases hseen : save.echoSeen <;> cases hm : c.store.markSaved save.document <;>
    simp [hm, handleResult, hg, EchoGuard.settle, hs, hseen, guardAfter, EchoGuard.awaitLateEcho]

theorem handled_result (c : Client) (id : String) (ok : Bool) (e : Option HostError) (now : Nat) :
    c.Handled now (.persistResult id ok e) (c.handleResult id ok e now).1
      (c.handleResult id ok e now).2 := by
  rcases settle_cases c.guard id with ⟨save, hg, rfl, hsettle⟩ | ⟨hother, hsettle⟩
  · cases ok with
    | false =>
      simp only [handleResult, hsettle]
      exact .failed hg rfl rfl rfl ⟨rfl, rfl⟩
    | true =>
      cases hs : save.superseded with
      | true =>
        simp only [handleResult, hsettle, hs]
        exact .overtaken hg rfl hs rfl rfl ⟨rfl, rfl⟩
      | false =>
        rw [handleResult_confirmed e now hg hs]
        cases hl : c.store.loaded with
        | none =>
          simp only [Store.markSaved, hl]
          exact .unloaded hg rfl hs rfl hl rfl ⟨rfl, rfl⟩
        | some l =>
          simp only [Store.markSaved, hl]
          exact .confirmed hg rfl hs rfl (by simp [Store.markSaved, hl, countConfirmed]) ⟨rfl, rfl⟩
  · simp only [handleResult, hsettle]
    exact .stale hother

theorem handled_handle (h : c.handle m now = (outcome, c')) : c.Handled now m outcome c' := by
  obtain ⟨rfl, rfl⟩ := Prod.mk.inj h.symm
  cases m with
  | persistResult id ok e => exact handled_result c id ok e now
  | changed d => exact handled_changed c d now
  | catalogUpdated feed => exact .catalog rfl rfl ⟨rfl, rfl⟩

theorem Handled.first_change {save : InFlightSave} {d : Document}
    (h : c.Handled now (.changed d) outcome c') (ht : c.config.echoTimeout = none)
    (hg : c.guard = .awaitingEcho save) (fresh : save.echoSeen = false) :
    outcome = .ok (.echoSuppressed save.requestId) ∧
      c'.guard = .awaitingEcho { save with echoSeen := true } ∧ c'.store = c.store ∧ c.Kept c' := by
  cases h with
  | suppressed suppresses store kept =>
    rw [hg] at suppresses
    generalize c'.guard = g' at suppresses
    cases suppresses with
    | first => exact ⟨rfl, rfl, store, kept⟩
  | replaced passes =>
    rw [hg] at passes
    generalize c'.guard = g' at passes
    cases passes with
    | second seen => simp [fresh] at seen
    | stale timed => exact absurd ht timed

theorem Handled.result_kept {id : String} {ok : Bool} {e : Option HostError}
    (h : c.Handled now (.persistResult id ok e) outcome c') : c.Kept c' := by
  cases h with
  | stale => exact ⟨rfl, rfl⟩
  | failed _ _ _ _ kept | overtaken _ _ _ _ _ kept | confirmed _ _ _ _ _ kept
  | unloaded _ _ _ _ _ _ kept => exact kept

theorem Handled.own_result {save : InFlightSave} {id : String} {ok : Bool} {e : Option HostError}
    (h : c.Handled now (.persistResult id ok e) outcome c') (hg : c.guard = .awaitingEcho save)
    (own : save.requestId = id) :
    c'.guard = .idle ∨ c'.guard = guardAfter save now := by
  cases h with
  | stale other => exact absurd own (other save hg)
  | failed _ _ idle | overtaken _ _ _ idle => exact .inl idle
  | confirmed guard _ _ after | unloaded guard _ _ after =>
    cases hg.symm.trans guard
    exact .inr after

structure Continues (save save' : InFlightSave) : Prop where
  requestId : save'.requestId = save.requestId
  document : save'.document = save.document
  digest : save'.digest = save.digest
  superseded : save.superseded = true → save'.superseded = true

theorem Handled.inFlight {save' : InFlightSave} (h : c.Handled now m outcome c')
    (hg : c'.guard = .awaitingEcho save') :
    ∃ save, c.guard = .awaitingEcho save ∧ Continues save save' := by
  cases h with
  | suppressed suppresses =>
    generalize c.guard = g, c'.guard = g' at suppresses hg
    cases suppresses with
    | first => cases hg; exact ⟨_, rfl, rfl, rfl, rfl, id⟩
    | late => cases hg
  | replaced passes =>
    generalize c.guard = g, c'.guard = g' at passes hg
    cases passes with
    | second => cases hg; exact ⟨_, rfl, rfl, rfl, rfl, fun _ => rfl⟩
    | idle | other | stale => cases hg
  | stale => exact ⟨_, hg, rfl, rfl, rfl, id⟩
  | failed _ _ idle | overtaken _ _ _ idle => simp [idle] at hg
  | confirmed _ _ _ after | unloaded _ _ _ after =>
    rw [after, guardAfter] at hg
    split at hg <;> cases hg
  | catalog guard => exact ⟨_, guard ▸ hg, rfl, rfl, rfl, id⟩

theorem Handled.loaded {l : Loaded} (h : c.Handled now m outcome c')
    (hl : c.store.loaded = some l) : ∃ l', c'.store.loaded = some l' := by
  cases h with
  | suppressed _ store | failed _ _ _ store | overtaken _ _ _ _ store | unloaded _ _ _ _ _ store =>
    exact ⟨l, store ▸ hl⟩
  | replaced _ store => exact ⟨_, store ▸ Store.install_loaded _ _⟩
  | stale => exact ⟨l, hl⟩
  | confirmed _ _ _ _ store =>
    simp only [Store.markSaved, hl, Except.ok.injEq] at store
    exact ⟨_, congrArg Store.loaded store.symm⟩
  | catalog _ store => exact store ▸ Store.Edited.loaded (.published _ rfl) hl

def Grounded (c : Client) : Prop :=
  ∀ save, c.guard = .awaitingEcho save → ∃ l, c.store.loaded = some l

theorem grounded_of_idle (h : c.guard = .idle) : c.Grounded := by
  intro save hg
  cases h.symm.trans hg

theorem Grounded.edited {t : Store} (hc : c.Grounded) (he : c.store.Edited t) :
    { c with store := t }.Grounded := by
  intro save hg
  obtain ⟨l, hl⟩ := hc save hg
  exact he.loaded hl

theorem Grounded.handled (hc : c.Grounded) (h : c.Handled now m outcome c') : c'.Grounded := by
  intro save' hg
  obtain ⟨save, hsave, -⟩ := h.inFlight hg
  obtain ⟨l, hl⟩ := hc save hsave
  exact h.loaded hl

theorem Handled.config_eq (h : c.Handled now m outcome c') : c'.config = c.config := by
  cases h with
  | suppressed _ _ kept | failed _ _ _ _ kept | overtaken _ _ _ _ _ kept
  | confirmed _ _ _ _ _ kept | unloaded _ _ _ _ _ _ kept | catalog _ _ kept => exact kept.config
  | replaced _ _ config => exact config
  | stale => rfl

theorem Handled.confirmed_result {save : InFlightSave} {e : Option HostError}
    (h : c.Handled now (.persistResult save.requestId true e) outcome c') (hc : c.Grounded)
    (hg : c.guard = .awaitingEcho save) (superseded : save.superseded = false) :
    c'.guard = guardAfter save now ∧
      c.store.markSaved save.document = .ok c'.store ∧ c.Kept c' := by
  obtain ⟨l, hl⟩ := hc save hg
  cases h with
  | stale other => exact absurd rfl (other save hg)
  | overtaken guard _ overtaken =>
    cases hg.symm.trans guard
    simp [superseded] at overtaken
  | confirmed guard _ _ after store kept =>
    cases hg.symm.trans guard
    exact ⟨after, store, kept⟩
  | unloaded _ _ _ _ none => simp [hl] at none

theorem Handled.overtaken_result {save : InFlightSave} {e : Option HostError}
    (h : c.Handled now (.persistResult save.requestId true e) outcome c')
    (hg : c.guard = .awaitingEcho save) (superseded : save.superseded = true) :
    c'.guard = .idle ∧ c'.store = c.store := by
  cases h with
  | stale other => exact absurd rfl (other save hg)
  | overtaken _ _ _ idle store => exact ⟨idle, store⟩
  | confirmed guard _ confirmed | unloaded guard _ confirmed =>
    cases hg.symm.trans guard
    simp [superseded] at confirmed

-- ---------------------------------------------------------------------------
-- Where nothing is in the way
-- ---------------------------------------------------------------------------

def echoed (c : Client) (save : InFlightSave) : Client :=
  { c with
    guard := .awaitingEcho { save with echoSeen := true }
    status := { c.status with echoesSuppressed := c.status.echoesSuppressed + 1 } }

def confirmed (c : Client) (save : InFlightSave) (l : Loaded) (now : Nat) : Client :=
  { c with
    guard := guardAfter save now
    store := { c.store with loaded := some { l with snapshot := save.document, repaired := false } }
    status := { c.status with
      savesConfirmed := c.status.savesConfirmed + 1, lastSavedAt := some now } }

theorem handle_timely_echo {save : InFlightSave} (d : Document) (now : Nat)
    (timely : ∀ timeout, c.config.echoTimeout = some timeout → now - save.armedAt < timeout)
    (hg : c.guard = .awaitingEcho save) (fresh : save.echoSeen = false) :
    c.handle (.changed d) now = (.ok (.echoSuppressed save.requestId), c.echoed save) := by
  cases ht : c.config.echoTimeout with
  | none =>
    simp [handle, handleChanged, EchoGuard.classify, EchoGuard.expire, EchoGuard.classifyFresh,
      echoed, ht, hg, fresh]
  | some timeout =>
    simp [handle, handleChanged, EchoGuard.classify, EchoGuard.expire, EchoGuard.waiting?,
      EchoGuard.classifyFresh, echoed, ht, hg, fresh, timely timeout ht]

theorem handle_echo {save : InFlightSave} (d : Document) (now : Nat)
    (ht : c.config.echoTimeout = none) (hg : c.guard = .awaitingEcho save)
    (fresh : save.echoSeen = false) :
    c.handle (.changed d) now = (.ok (.echoSuppressed save.requestId), c.echoed save) := by
  refine handle_timely_echo d now ?_ hg fresh
  rw [ht]
  nofun

theorem handle_external (d : Document) (now : Nat) (hg : c.guard = .idle) :
    c.handle (.changed d) now = (.ok (c.replace d now).1, (c.replace d now).2) := by
  obtain ⟨store, config, guard, counter, status⟩ := c
  cases hg
  simp [handle, handleChanged, EchoGuard.classify, EchoGuard.expire, EchoGuard.waiting?,
    EchoGuard.classifyFresh]

theorem handle_persisted {save : InFlightSave} {id : String} {l : Loaded} (now : Nat)
    (hg : c.guard = .awaitingEcho save) (own : save.requestId = id)
    (superseded : save.superseded = false) (hl : c.store.loaded = some l) :
    c.handle (.persisted id) now = (.ok (.saveConfirmed id), c.confirmed save l now) := by
  subst own
  simp only [HostMessage.persisted, handle, handleResult_confirmed none now hg superseded,
    Store.markSaved, hl, countConfirmed, confirmed]

theorem handle_failed {save : InFlightSave} (e : Option HostError) (now : Nat)
    (hg : c.guard = .awaitingEcho save) :
    c.handle (.persistResult save.requestId false e) now =
      (.ok (.saveFailed save.requestId (e.getD unexplained)),
        { c with guard := .idle }.countFailed) := by
  simp [handle, handleResult, EchoGuard.settle, hg]

end Client

-- ---------------------------------------------------------------------------
-- Saves and loads
-- ---------------------------------------------------------------------------

namespace Session

variable {s : Session MemoryHost} {now : Nat}

/-- Every way in which a save is begun. Only a stale guard is cleared on the way. -/
inductive Begun (s : Session MemoryHost) :
    Except SyncError String → Session MemoryHost → Prop
  | refused {e c'} (store : c'.store = s.client.store)
    (guard : c'.guard = s.client.guard ∨
      c'.guard = .idle ∧ s.client.config.echoTimeout ≠ none)
    (kept : s.client.Kept c') : Begun s (.error e) ⟨c', s.host⟩
  | armed {l save id c' h'} (own : save.requestId = id) (loaded : s.client.store.loaded = some l)
    (free : s.client.guard.inFlight? = none ∨ s.client.config.echoTimeout ≠ none)
    (guard : c'.guard = .awaitingEcho save) (store : c'.store = s.client.store)
    (document : save.document = l.current) (digest : save.digest = l.current.digest)
    (fresh : save.echoSeen = false ∧ save.superseded = false)
    (submitted : s.host.Submitted (.persist id l.current save.digest) h')
    (kept : s.client.Kept c') : Begun s (.ok id) ⟨c', h'⟩

theorem expireGuard_cases (c : Client) (now : Nat) :
    c.Kept (expireGuard c now) ∧ (expireGuard c now).store = c.store ∧
      ((expireGuard c now).guard = c.guard ∨
        (expireGuard c now).guard = .idle ∧ c.config.echoTimeout ≠ none) := by
  unfold expireGuard
  rcases EchoGuard.expire_cases c.guard c.config.echoTimeout now with h | ⟨id, h, ht⟩
  · rw [h]
    exact ⟨⟨rfl, rfl⟩, rfl, .inl rfl⟩
  · rw [h]
    exact ⟨⟨rfl, rfl⟩, rfl, .inr ⟨rfl, ht⟩⟩

theorem expireGuard_untimed (c : Client) (now : Nat) (untimed : c.config.echoTimeout = none) :
    expireGuard c now = c := by
  have hnone : c.guard.expire none now = (none, c.guard) := by
    cases c.guard <;> rfl
  simp [expireGuard, untimed, hnone]

theorem begun_beginSave (s : Session MemoryHost) (now : Nat) (ho : s.host.Ordered) :
    s.Begun (s.beginSave now).1 (s.beginSave now).2 := by
  obtain ⟨⟨hconfig, hext⟩, hstore, hguard⟩ := expireGuard_cases s.client now
  unfold beginSave
  dsimp only
  generalize expireGuard s.client now = c at *
  split
  · exact .refused hstore hguard ⟨hconfig, hext⟩
  · rename_i hfree
    split
    · exact .refused hstore hguard ⟨hconfig, hext⟩
    · rename_i d hget
      obtain ⟨l, hl, rfl⟩ := Store.get_eq_ok hget
      obtain ⟨h', hsubmit, submitted⟩ := MemoryHost.submit_persist (h := s.host)
        c.nextRequest.1 l.current.digest l.current ho
      simp only [hsubmit]
      let save : InFlightSave := {
        requestId := c.nextRequest.1, digest := l.current.digest, document := l.current
        armedAt := now }
      have own : save.requestId = c.nextRequest.1 := rfl
      refine .armed own (hstore ▸ hl) ?_ rfl hstore rfl rfl ⟨rfl, rfl⟩ submitted
        ⟨hconfig, hext⟩
      rcases hguard with hguard | ⟨-, ht⟩
      · exact .inl (hguard ▸ hfree)
      · exact .inr ht

theorem Begun.grounded {r : Except SyncError String} {s' : Session MemoryHost}
    (h : s.Begun r s') (hc : s.client.Grounded) : s'.client.Grounded := by
  cases h with
  | refused store guard =>
    intro save hg
    rcases guard with guard | ⟨guard, -⟩
    · exact store ▸ hc save (guard ▸ hg)
    · simp [guard] at hg
  | armed _ loaded _ _ store => exact fun save _ => ⟨_, store ▸ loaded⟩

theorem loadedDocument_success {version : Int32} {id : String} {v : Json} {d : Document} :
    loadedDocument (.success version id (.obj [("document", v)])) = .ok d ↔
      Document.ofJson? v = .ok d := by
  have hv : (Json.obj [("document", v)]).get? "document" = some v := by simp [Json.get?]
  simp only [loadedDocument, HostResponse.success, Bool.not_true, Bool.false_eq_true, if_false,
    Option.bind_some, hv]
  cases Document.ofJson? v <;> simp

theorem load_cases (s : Session MemoryHost) (path : Option String) (now : Nat) :
    ∃ requests, (s.load path now).2.host = { s.host with requests } ∧
      (s.load path now).2.client.guard = s.client.guard ∧
      s.client.Kept (s.load path now).2.client ∧
      ((s.load path now).2.client.store = s.client.store ∨
        ∃ d, Document.ofJson? s.host.document.toValue = .ok d ∧
          (s.load path now).2.client.store = (s.client.store.install d).1) := by
  unfold load
  dsimp only
  rw [MemoryHost.request_load]
  dsimp only
  split
  · exact ⟨_, rfl, rfl, ⟨rfl, rfl⟩, .inl rfl⟩
  · rename_i d hd
    refine ⟨_, rfl, rfl, ⟨rfl, rfl⟩, .inr ⟨d, ?_, rfl⟩⟩
    cases hfail : s.host.loadFailure with
    | some e => simp [hfail, loadedDocument, HostResponse.failure] at hd
    | none =>
      simp only [hfail] at hd
      exact loadedDocument_success.mp hd

theorem load_eq (path : Option String) (now : Nat) (hd : s.host.document.WellFormed)
    (hf : s.host.loadFailure = none) :
    s.load path now = (.ok (s.client.store.install s.host.document).2,
      { client := { s.client with
          counter := s.client.counter + 1
          store := (s.client.store.install s.host.document).1
          status := { s.client.status with lastLoadedAt := some now } }
        host := { s.host with requests :=
          s.host.requests ++ [HostRequest.load (requestId (s.client.counter + 1)) path] } }) := by
  have hloaded : ∀ id, loadedDocument (.success Protocol.high id
      (.obj [("document", s.host.document.toValue)])) = .ok s.host.document :=
    fun _ => loadedDocument_success.mpr (Document.ofJson?_toValue hd)
  simp only [load, Client.nextRequest, MemoryHost.request_load, hf, hloaded]

theorem beginSave_eq {l : Loaded} (now : Nat) (ht : s.client.config.echoTimeout = none)
    (hfree : s.client.guard.inFlight? = none) (hl : s.client.store.loaded = some l)
    (hd : l.current.WellFormed) (hp : s.host.paused = false) (hf : s.host.persistFailures = []) :
    s.beginSave now = (.ok (requestId (s.client.counter + 1)),
      { client := { s.client with
          counter := s.client.counter + 1
          guard := .awaitingEcho {
            requestId := requestId (s.client.counter + 1), digest := l.current.digest
            document := l.current, armedAt := now } }
        host := { s.host with
          document := l.current, persisted := s.host.persisted ++ [l.current]
          requests := s.host.requests ++
            [HostRequest.persist (requestId (s.client.counter + 1)) l.current l.current.digest]
          inbox := s.host.inbox ++
            s.host.answers (requestId (s.client.counter + 1)) l.current } }) := by
  have hexpire := expireGuard_untimed s.client now ht
  have hget : s.client.store.get = .ok l.current := by simp [Store.get, hl]
  simp only [beginSave, hexpire, hfree, hget, Client.nextRequest,
    MemoryHost.submit_persist_eq hd hp hf, EchoGuard.arm]

end Session

end ShellSettings
