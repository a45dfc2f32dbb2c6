import ShellSettings.Host.Script
import ShellSettings.Proofs.Sync.AnyHost

/-!
# Saves that fail

The first change after a save is begun is taken for its echo, before it is known
whether the save succeeds. A failed save has no echo, so that change was another
writer's, and it is dropped. Nothing else remains of the save: a session with it and
one without take in the same messages otherwise, and with the next change they
have the same documents again (`Session.failed_save_drops_first_change`).
-/

namespace ShellSettings

namespace HostMessage

/-- A message that a host sends on its own account, and not as the result of a save. -/
def IsPushed : HostMessage → Prop
  | .persistResult _ _ _ => False
  | .changed _ | .catalogUpdated _ => True

def isChanged : HostMessage → Bool
  | .changed _ => true
  | _ => false

end HostMessage

-- ---------------------------------------------------------------------------
-- Stores that differ in their revisions
-- ---------------------------------------------------------------------------

namespace Store

/-- What a store makes of a message when no guard is in the way. -/
def take (s : Store) : HostMessage → Store
  | .changed d => (s.install d).1
  | .catalogUpdated feed => (s.applyCatalog feed).1
  | .persistResult _ _ _ => s

def takeAll (s : Store) (messages : List (HostMessage × Nat)) : Store :=
  messages.foldl (fun s m => s.take m.1) s

def withRevision (s : Store) (revision : Nat) : Store :=
  { s with loaded := s.loaded.map ({ · with revision }) }

/-- All that there is to see of the documents but the revision. -/
structure SameDocuments (s t : Store) : Prop where
  current : s.get = t.get
  snapshot : s.snapshot = t.snapshot
  dirty : s.isDirty = t.isDirty
  needsSave : s.needsSave = t.needsSave

theorem SameDocuments.refl (s : Store) : s.SameDocuments s := ⟨rfl, rfl, rfl, rfl⟩

theorem sameDocuments_withRevision (s : Store) (revision : Nat) :
    s.SameDocuments (s.withRevision revision) := by
  cases hl : s.loaded <;>
    constructor <;> simp [withRevision, get, Store.snapshot, isDirty, needsSave, hl, Loaded.isDirty]

theorem take_withRevision (s : Store) (m : HostMessage) (revision : Nat) :
    ∃ revision', (s.withRevision revision).take m = (s.take m).withRevision revision' := by
  cases m with
  | persistResult => exact ⟨revision, rfl⟩
  | changed d => exact ⟨_, rfl⟩
  | catalogUpdated feed =>
    cases hl : s.loaded with
    | none => exact ⟨revision, by simp [take, applyCatalog, withRevision, hl]⟩
    | some l =>
      simp only [take, applyCatalog, withRevision, hl, Option.map_some]
      split <;> split <;> exact ⟨_, rfl⟩

theorem takeAll_withRevision (s : Store) (messages : List (HostMessage × Nat)) (revision : Nat) :
    ∃ revision', (s.withRevision revision).takeAll messages =
      (s.takeAll messages).withRevision revision' := by
  induction messages generalizing s revision with
  | nil => exact ⟨revision, rfl⟩
  | cons m messages ih =>
    obtain ⟨revision', h⟩ := take_withRevision s m.1 revision
    simp only [takeAll, List.foldl_cons, h]
    exact ih _ _

theorem take_of_loaded (s : Store) (m : HostMessage) (loaded : Option Loaded) :
    ∃ loaded', { s with loaded }.take m = { s.take m with loaded := loaded' } := by
  cases m with
  | persistResult | changed d => exact ⟨_, rfl⟩
  | catalogUpdated feed =>
    simp only [take, applyCatalog]
    cases loaded <;> cases s.loaded <;> exact ⟨_, rfl⟩

/-- Once a document has been installed, only the revision tells what was loaded before. -/
theorem takeAll_of_loaded (s : Store) (messages : List (HostMessage × Nat))
    (loaded : Option Loaded) (h : 0 < messages.countP (·.1.isChanged)) :
    ∃ revision, { s with loaded }.takeAll messages =
      (s.takeAll messages).withRevision revision := by
  induction messages generalizing s loaded with
  | nil => simp at h
  | cons m messages ih =>
    obtain ⟨m, now⟩ := m
    obtain ⟨loaded', hloaded⟩ := take_of_loaded s m loaded
    cases m with
    | changed d => exact takeAll_withRevision (s.install d).1 messages _
    | catalogUpdated | persistResult =>
      simp only [takeAll, List.foldl_cons, hloaded]
      exact ih _ loaded' (by simpa [HostMessage.isChanged] using h)

theorem takeAll_eraseP (s : Store) (messages : List (HostMessage × Nat))
    (h : 1 < messages.countP (·.1.isChanged)) :
    ∃ revision, s.takeAll messages =
      (s.takeAll (messages.eraseP (·.1.isChanged))).withRevision revision := by
  induction messages generalizing s with
  | nil => simp at h
  | cons m messages ih =>
    obtain ⟨m, now⟩ := m
    cases m with
    | changed d =>
      have rest : 0 < messages.countP (·.1.isChanged) := by
        simpa [HostMessage.isChanged] using h
      exact takeAll_of_loaded s messages _ rest
    | catalogUpdated | persistResult =>
      have rest : 1 < messages.countP (·.1.isChanged) := by
        simpa [HostMessage.isChanged] using h
      exact ih _ rest

theorem sameDocuments_eraseP (s : Store) (messages : List (HostMessage × Nat))
    (h : messages.countP (·.1.isChanged) ≠ 1) :
    (s.takeAll (messages.eraseP (·.1.isChanged))).SameDocuments (s.takeAll messages) := by
  rcases Nat.lt_or_gt_of_ne h with none | several
  · have unchanged : ∀ m ∈ messages, ¬m.1.isChanged = true :=
      List.countP_eq_zero.mp (Nat.lt_one_iff.mp none)
    rw [List.eraseP_of_forall_not unchanged]
    exact .refl _
  · obtain ⟨revision, h⟩ := takeAll_eraseP s messages several
    exact h ▸ sameDocuments_withRevision _ revision

end Store

-- ---------------------------------------------------------------------------
-- Messages while a save is outstanding
-- ---------------------------------------------------------------------------

/-- The guard takes changes for what they are. It waits for the result of a save at most, after
the echo of that save. -/
def EchoGuard.Open (waiting : Option String) : EchoGuard → Prop
  | .idle => waiting = none
  | .awaitingEcho save => save.echoSeen = true ∧ waiting = some save.requestId
  | .awaitingLateEcho _ => False

theorem EchoGuard.Open.inFlight {g : EchoGuard} {id : String} (h : g.Open (some id)) :
    ∃ save, g = .awaitingEcho save ∧ save.requestId = id := by
  cases g with
  | idle => cases h
  | awaitingEcho save => exact ⟨save, rfl, (Option.some.inj h.2).symm⟩
  | awaitingLateEcho => cases h

namespace Client

variable {c c' : Client} {m : HostMessage} {outcome : Except SyncError Outcome} {now : Nat}
  {messages : List (HostMessage × Nat)}

def handleAll (c : Client) (messages : List (HostMessage × Nat)) : Client :=
  messages.foldl (fun c m => (c.handle m.1 m.2).2) c

theorem Handled.open_guard {waiting : Option String} (h : c.Handled now m outcome c')
    (hm : m.IsPushed) (ht : c.config.echoTimeout = none) (hg : c.guard.Open waiting) :
    c'.guard.Open waiting ∧ c'.store = c.store.take m := by
  cases h with
  | suppressed suppresses =>
    generalize c.guard = g, c'.guard = g' at suppresses hg
    cases suppresses with
    | first fresh => simp [EchoGuard.Open, fresh] at hg
    | late => cases hg
  | replaced passes store =>
    refine ⟨?_, store⟩
    generalize c.guard = g, c'.guard = g' at passes hg
    cases passes with
    | idle | second => exact hg
    | other => cases hg
    | stale timed => exact absurd ht timed
  | catalog guard store => exact ⟨guard ▸ hg, store⟩
  | stale | failed | overtaken | confirmed | unloaded => cases hm

theorem handleAll_open {waiting : Option String} (hm : ∀ m ∈ messages, m.1.IsPushed)
    (ht : c.config.echoTimeout = none) (hg : c.guard.Open waiting) :
    (c.handleAll messages).guard.Open waiting ∧
      (c.handleAll messages).store = c.store.takeAll messages := by
  induction messages generalizing c with
  | nil => exact ⟨hg, rfl⟩
  | cons m messages ih =>
    obtain ⟨first, rest⟩ := List.forall_mem_cons.mp hm
    have handled : c.Handled m.2 m.1 _ _ := handled_handle rfl
    obtain ⟨guard, store⟩ := handled.open_guard first ht hg
    have never := (congrArg SyncConfig.echoTimeout handled.config_eq).trans ht
    obtain ⟨guard', store'⟩ := ih rest never guard
    exact ⟨guard', store'.trans (store ▸ rfl)⟩

theorem handleAll_armed {save : InFlightSave} (hm : ∀ m ∈ messages, m.1.IsPushed)
    (ht : c.config.echoTimeout = none) (hg : c.guard = .awaitingEcho save)
    (fresh : save.echoSeen = false) :
    (∃ save', (c.handleAll messages).guard = .awaitingEcho save' ∧
        save'.requestId = save.requestId) ∧
      (c.handleAll messages).store = c.store.takeAll (messages.eraseP (·.1.isChanged)) := by
  induction messages generalizing c with
  | nil => exact ⟨⟨save, hg, rfl⟩, rfl⟩
  | cons m messages ih =>
    obtain ⟨first, rest⟩ := List.forall_mem_cons.mp hm
    obtain ⟨m, now⟩ := m
    cases m with
    | persistResult => cases first
    | catalogUpdated feed => exact ih rest ht hg
    | changed d =>
      have opened : (c.echoed save).guard.Open (some save.requestId) := ⟨rfl, rfl⟩
      obtain ⟨guard, store⟩ := handleAll_open (c := c.echoed save) rest ht opened
      simp only [handleAll, List.foldl_cons, handle_echo d now ht hg fresh]
      exact ⟨guard.inFlight, store⟩

end Client

namespace Session

variable {η : Type} [Transport η] {s s' : Session η} {id : String} {now : Nat}
  {messages : List (HostMessage × Nat)}

/-- A save that fails leaves the store as the same messages would have left it without the save,
less the first change. That one is missed for good only if no other followed. -/
theorem failed_save_drops_first_change (idle : s.client.guard = .idle)
    (never : s.client.config.echoTimeout = none) (pushed : ∀ m ∈ messages, m.1.IsPushed)
    (begun : s.beginSave now = (.ok id, s')) (e : Option HostError) (later : Nat) :
    let failed := (s'.client.handleAll messages).handle (.persistResult id false e) later
    failed.1 = .ok (.saveFailed id (e.getD Client.unexplained)) ∧ failed.2.guard = .idle ∧
      failed.2.store = (s.client.handleAll (messages.eraseP (·.1.isChanged))).store ∧
      (messages.countP (·.1.isChanged) ≠ 1 →
        failed.2.store.SameDocuments (s.client.handleAll messages).store) := by
  have plain : ∀ ms : List (HostMessage × Nat), (∀ m ∈ ms, m.1.IsPushed) →
      (s.client.handleAll ms).store = s.client.store.takeAll ms := by
    intro ms hm
    have opened : s.client.guard.Open none := idle ▸ rfl
    exact (Client.handleAll_open hm never opened).2
  have tried := tried_beginSave s now
  rw [begun] at tried
  cases tried with
  | sent _ save _ _ guard _ fresh store _ _ config =>
    obtain ⟨⟨save', guard', own⟩, dropped⟩ := Client.handleAll_armed pushed
      ((congrArg SyncConfig.echoTimeout config).trans never) guard fresh.1
    rw [store] at dropped
    have erased := plain (messages.eraseP (·.1.isChanged)) fun m hm =>
      pushed m (List.mem_of_mem_eraseP hm)
    rw [← own, Client.handle_failed e later guard']
    refine ⟨rfl, rfl, dropped.trans erased.symm, fun several => ?_⟩
    rw [plain messages pushed]
    exact dropped ▸ Store.sameDocuments_eraseP s.client.store messages several

def unsaved : Session ScriptHost where
  client := {
    store := {
      loaded := some ⟨{ language := "da" }, {}, 1, false⟩
      ids := ⟨fun _ => "new", 0⟩ }
    config := { echoTimeout := none } }
  host := {}

def saving : Session ScriptHost :=
  let document : Document := { language := "da" }
  { unsaved with
    client := { unsaved.client with
      guard := .awaitingEcho {
        requestId := requestId 1, digest := document.digest, document, armedAt := 0 }
      counter := 1 } }

theorem beginSave_unsaved : unsaved.beginSave 0 = (.ok (requestId 1), saving) := rfl

/-- Another writer changes the language twice and publishes themes before the save fails. The
second change is there in the end. -/
theorem failed_save_drops_first_of_two :
    let messages : List (HostMessage × Nat) := [(.changed { language := "no" }, 1),
      (.catalogUpdated { kind := .theme, entries := [] }, 2), (.changed { language := "sv" }, 3)]
    let failed := (saving.client.handleAll messages).handle
      (.persistResult (requestId 1) false none) 4
    (unsaved.client.guard = .idle ∧ unsaved.client.config.echoTimeout = none ∧
      (∀ m ∈ messages, m.1.IsPushed) ∧ unsaved.beginSave 0 = (.ok (requestId 1), saving)) ∧
    failed.1 = .ok (.saveFailed (requestId 1) Client.unexplained) ∧ failed.2.guard = .idle ∧
    failed.2.store = (unsaved.client.handleAll (messages.eraseP (·.1.isChanged))).store ∧
    failed.2.store.SameDocuments (unsaved.client.handleAll messages).store ∧
    failed.2.store.get = .ok { language := "sv" } := by
  intro messages failed
  have pushed : ∀ m ∈ messages, m.1.IsPushed := by simp [messages, HostMessage.IsPushed]
  obtain ⟨result, guard, store, documents⟩ :=
    failed_save_drops_first_change rfl rfl pushed beginSave_unsaved none 4
  exact ⟨⟨rfl, rfl, pushed, beginSave_unsaved⟩, result, guard, store, documents (by decide),
    (congrArg Store.get store).trans rfl⟩

/-- Another writer's only change, which comes before the save fails, is lost: the edited document
stays, unsaved. Without the save the change would be there. -/
theorem only_change_lost :
    let messages : List (HostMessage × Nat) := [(.changed { language := "no" }, 1)]
    let failed := (saving.client.handleAll messages).handle
      (.persistResult (requestId 1) false none) 2
    let plain := unsaved.client.handleAll messages
    (unsaved.client.guard = .idle ∧ unsaved.client.config.echoTimeout = none ∧
      unsaved.beginSave 0 = (.ok (requestId 1), saving)) ∧
    failed.1 = .ok (.saveFailed (requestId 1) Client.unexplained) ∧
    (failed.2.store.get = .ok { language := "da" } ∧ failed.2.store.isDirty = true) ∧
    (plain.store.get = .ok { language := "no" } ∧ plain.store.isDirty = false) ∧
    ¬failed.2.store.SameDocuments plain.store := by
  refine ⟨⟨rfl, rfl, beginSave_unsaved⟩, rfl, ⟨rfl, rfl⟩, ⟨rfl, rfl⟩, fun same => ?_⟩
  exact Bool.noConfusion (same.dirty : true = false)

end Session

end ShellSettings
