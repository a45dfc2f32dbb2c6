import ShellSettings.Host.Script
import ShellSettings.Proofs.Sync.AnyHost

/-!
# Saves that another writer has overtaken

When another writer's document replaces the current one, no save begun before can
become the snapshot any more: either the guard has let go of it, or it knows that
it was superseded. Later saves have other ids, so whatever results of the old ones
are still to come, in whatever number, the store stays as it is
(`Session.Steps.replaced_save_inert`).
-/

namespace ShellSettings

namespace Client

variable {c c' : Client} {m : HostMessage} {outcome : Except SyncError Outcome} {now : Nat}

/-- No save among the first so many requests can become the snapshot. -/
structure Past (requests : Nat) (c : Client) : Prop where
  numbered : requests ≤ c.counter
  superseded : ∀ save, c.guard = .awaitingEcho save →
    save.superseded = true ∨ ∃ n, requests < n ∧ save.requestId = requestId n

variable {requests : Nat}

theorem Past.of_guard (h : c.Past requests) (hcounter : c.counter ≤ c'.counter)
    (hguard : c'.guard = c.guard ∨ c'.guard = .idle) : c'.Past requests := by
  refine ⟨Nat.le_trans h.numbered hcounter, fun save hg => ?_⟩
  rcases hguard with hguard | hguard
  · exact h.superseded save (hguard ▸ hg)
  · cases hguard.symm.trans hg

theorem Past.handled (h : c.Past requests) (hh : c.Handled now m outcome c')
    (hcounter : c'.counter = c.counter) : c'.Past requests := by
  refine ⟨hcounter ▸ h.numbered, fun save' hg => ?_⟩
  obtain ⟨save, hsave, continues⟩ := hh.inFlight hg
  rw [continues.requestId]
  exact (h.superseded save hsave).imp_left continues.superseded

theorem past_of_replaced {d : Document} {revision : Option Nat} {dropped : List Reference}
    (h : c.Handled now (.changed d) (.ok (.externalReplaced revision dropped)) c')
    (hcounter : c'.counter = c.counter) : c'.Past c.counter := by
  refine ⟨Nat.le_of_eq hcounter.symm, fun save hg => .inl ?_⟩
  cases h with
  | replaced passes =>
    generalize c.guard = g, c'.guard = g' at passes hg
    cases passes with
    | second => cases hg; rfl
    | idle | other | stale => cases hg

theorem Past.store_of_result {n : Nat} {ok : Bool} {e : Option HostError} (h : c.Past requests)
    (hn : n ≤ requests) (hh : c.Handled now (.persistResult (requestId n) ok e) outcome c') :
    c'.store = c.store := by
  cases hh with
  | stale => rfl
  | failed _ _ _ store | overtaken _ _ _ _ store | unloaded _ _ _ _ _ store => exact store
  | confirmed guard own superseded =>
    rcases h.superseded _ guard with hs | ⟨n', hn', hid⟩
    · simp [superseded] at hs
    · have := requestId_inj.mp (own.symm.trans hid)
      omega

end Client

namespace Session

variable {η : Type} {start s t : Session η} {log more : List Report} {id : String} {requests : Nat}

theorem Tried.past {r : Except SyncError String} {c' : Client} (h : s.Tried r c')
    (hs : s.client.Past requests) : c'.Past requests := by
  cases h with
  | declined _ _ guard _ counter => exact hs.of_guard (by omega) guard
  | refused _ guard _ counter => exact hs.of_guard (by omega) (.inr guard)
  | sent _ save own _ guard _ _ _ counter =>
    have := hs.numbered
    refine ⟨by omega, fun save' hg => .inr ?_⟩
    cases guard.symm.trans hg
    exact ⟨_, by omega, own⟩

variable [Transport η]

theorem Steps.past (steps : Steps start log s) (h : start.client.Past requests) :
    s.client.Past requests := by
  induction steps with
  | start => exact h
  | edit _ _ ih => exact ih.of_guard (Nat.le_refl _) (.inl rfl)
  | host _ _ ih => exact ih
  | @load log s path now _ ih =>
    obtain ⟨hguard, hcounter, -⟩ := load_frame s path now
    exact ih.of_guard (by omega) (.inl hguard)
  | beginSave now _ ih => exact (tried_beginSave _ now).past ih
  | handle m now _ ih =>
    exact ih.handled (Client.handled_handle rfl) (Client.counter_handle _ m now)

/-- After another writer's document has replaced the current one, no result of a save that was
begun before changes the store. -/
theorem Steps.replaced_save_inert {d : Document} {revision : Option Nat} {dropped : List Reference}
    {c : Client} {now : Nat} (before : Steps start log s) (begun : .save (.ok id) ∈ log)
    (replaced : s.client.handle (.changed d) now = (.ok (.externalReplaced revision dropped), c))
    (after : Steps { s with client := c } more t) (ok : Bool) (e : Option HostError)
    (later : Nat) :
    (t.client.handle (.persistResult id ok e) later).2.store = t.client.store := by
  obtain ⟨n, hn, rfl⟩ := before.numbered begun
  have counter : c.counter = s.client.counter := by
    rw [← Client.counter_handle s.client (.changed d) now, replaced]
  have past := after.past (Client.past_of_replaced (Client.handled_handle replaced) counter)
  exact past.store_of_result hn (Client.handled_handle rfl)

/-- A save whose echo has come is overtaken by another writer and confirmed after that; what was
edited in the meantime stays. -/
theorem replaced_save_inert_confirmed :
    ∃ (start s t : Session ScriptHost) (log more : List Report) (id : String) (c : Client),
      Steps start log s ∧ .save (.ok id) ∈ log ∧
      s.client.handle (.changed { language := "no" }) 0 = (.ok (.externalReplaced (some 1) []), c) ∧
      Steps { s with client := c } more t ∧ t.client.store.isDirty = true ∧
      (t.client.handle (.persisted id) 0).1 = .ok (.saveConfirmed id) ∧
      (t.client.handle (.persisted id) 0).2.store = t.client.store := by
  let start : Session ScriptHost := ⟨{ store := { ids := ⟨fun _ => "new", 0⟩ } }, {}⟩
  let saved : Document := { language := "da" }
  let save : InFlightSave := {
    requestId := requestId 1, digest := saved.digest, document := saved, armedAt := 0 }
  let seen : Client := {
    store := { loaded := some ⟨saved, saved, 0, false⟩, ids := ⟨fun _ => "new", 0⟩ }
    guard := .awaitingEcho { save with echoSeen := true }, counter := 1
    status := { echoesSuppressed := 1 } }
  let overtaken : Client := {
    store := {
      loaded := some ⟨{ language := "no" }, { language := "no" }, 1, false⟩
      ids := ⟨fun _ => "new", 0⟩ }
    guard := .awaitingEcho { save with echoSeen := true, superseded := true }, counter := 1
    status := { lastExternalChangeAt := some 0, echoesSuppressed := 1, externalChanges := 1 } }
  have loaded : Steps start [] (start.edit (.load saved)) := Steps.start.edit _
  have echoed : Steps start [.save (.ok save.requestId), .message (.changed saved) _]
      ⟨seen, {}⟩ := (loaded.beginSave 0).handle (.changed saved) 0
  have replaced : seen.handle (.changed { language := "no" }) 0 =
      (.ok (.externalReplaced (some 1) []), overtaken) := rfl
  have edited : Steps (⟨overtaken, {}⟩ : Session ScriptHost) [] _ :=
    Steps.start.edit (.createCollection "Fjords" [])
  exact ⟨start, _, _, _, _, save.requestId, overtaken, echoed, List.mem_cons_self, replaced, edited,
    rfl, rfl, echoed.replaced_save_inert List.mem_cons_self replaced edited true none 0⟩

end Session

end ShellSettings
