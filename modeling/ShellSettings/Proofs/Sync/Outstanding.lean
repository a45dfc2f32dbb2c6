import ShellSettings.Proofs.Sync.Accounts
import ShellSettings.Proofs.Sync.MemoryRun

/-!
# Saves that outlive a load

A load replaces both documents, but it leaves the guard alone. A save that was
outstanding before stays so, until its result comes or another change replaces the
store. If the result is ok its document becomes the snapshot, whatever was loaded
in the meantime; no other result of an earlier save changes the store
(`Session.Steps.rebased_iff_outstanding`).
-/

namespace ShellSettings

namespace EchoGuard

/-- The save in flight that no change has overtaken, with the document that was handed over. -/
def outstanding? : EchoGuard → Option (String × Document)
  | .awaitingEcho save => if save.superseded then none else some (save.requestId, save.document)
  | _ => none

theorem outstanding?_eq_some {g : EchoGuard} {id : String} {d : Document} :
    g.outstanding? = some (id, d) ↔
      ∃ save, g = .awaitingEcho save ∧ save.superseded = false ∧ save.requestId = id ∧
        save.document = d := by
  cases g with
  | idle | awaitingLateEcho => simp [outstanding?]
  | awaitingEcho save => cases hs : save.superseded <;> simp [outstanding?, hs]

end EchoGuard

/-- Whether a save of this id is not outstanding any more after what was reported. -/
def Session.Report.ends (id : String) (r : Report) : Bool := r.brings id .result || r.isReplaced

namespace Client

variable {c c' : Client} {m : HostMessage} {outcome : Except SyncError Outcome} {now : Nat}
  {id : String} {d : Document}

open Session (Report)

-- ---------------------------------------------------------------------------
-- What a message does to an outstanding save
-- ---------------------------------------------------------------------------

theorem Handled.outstanding (h : c.Handled now m outcome c')
    (hd : c'.guard.outstanding? = some (id, d)) : c.guard.outstanding? = some (id, d) := by
  obtain ⟨save', hg, superseded, own, document⟩ := EchoGuard.outstanding?_eq_some.mp hd
  obtain ⟨save, hsave, continues⟩ := h.inFlight hg
  refine EchoGuard.outstanding?_eq_some.mpr ⟨save, hsave, Bool.eq_false_iff.mpr fun hs => ?_,
    continues.requestId ▸ own, continues.document ▸ document⟩
  cases superseded.symm.trans (continues.superseded hs)

/-- An outstanding save stays so unless its result comes or the store is replaced. -/
theorem Handled.outstanding_iff (h : c.Handled now m outcome c') (hc : c.Grounded)
    (untimed : c.config.echoTimeout = none) (hd : c.guard.outstanding? = some (id, d)) :
    c'.guard.outstanding? = some (id, d) ↔ (Report.message m outcome).ends id = false := by
  obtain ⟨save, hg, superseded, rfl, rfl⟩ := EchoGuard.outstanding?_eq_some.mp hd
  cases h with
  | suppressed suppresses =>
    rw [hg] at suppresses
    generalize c'.guard = g' at suppresses
    cases suppresses with
    | first => simp [EchoGuard.outstanding?, superseded, Report.ends, Report.brings,
        Report.isReplaced]
  | replaced passes =>
    rw [hg] at passes
    generalize c'.guard = g' at passes
    -- Without a timeout only a second change passes, and it supersedes the save.
    cases passes with
    | second => simp [EchoGuard.outstanding?, Report.ends, Report.isReplaced]
    | stale timed => exact absurd untimed timed
  | stale => simp [hd, Report.ends, Report.brings, Report.isReplaced]
  | failed guard own idle =>
    cases hg.symm.trans guard
    simp [idle, EchoGuard.outstanding?, Report.ends, Report.brings, own]
  | overtaken guard _ overtaken =>
    cases hg.symm.trans guard
    simp [superseded] at overtaken
  | confirmed guard own _ after =>
    cases hg.symm.trans guard
    have hafter : (guardAfter save now).outstanding? = none := by unfold guardAfter; split <;> rfl
    simp [after, hafter, Report.ends, Report.brings, own]
  | unloaded guard _ _ _ none =>
    obtain ⟨l, hl⟩ := hc _ guard
    cases none.symm.trans hl
  | catalog guard => simp [guard, hd, Report.ends, Report.brings, Report.isReplaced]

theorem Handled.rebased {e : Option HostError}
    (h : c.Handled now (.persistResult id true e) outcome c') (hc : c.Grounded)
    (hd : c.guard.outstanding? = some (id, d)) : ∃ l, c.store.loaded = some l ∧
      c'.store = { c.store with loaded := some { l with snapshot := d, repaired := false } } := by
  obtain ⟨save, hg, superseded, rfl, rfl⟩ := EchoGuard.outstanding?_eq_some.mp hd
  obtain ⟨l, hl⟩ := hc save hg
  obtain ⟨-, hstore, -⟩ := h.confirmed_result hc hg superseded
  simp only [Store.markSaved, hl, Except.ok.injEq] at hstore
  exact ⟨l, hl, hstore.symm⟩

theorem Handled.store_of_result {ok : Bool} {e : Option HostError}
    (h : c.Handled now (.persistResult id ok e) outcome c')
    (other : ok = false ∨ ∀ d, c.guard.outstanding? ≠ some (id, d)) : c'.store = c.store := by
  cases h with
  | stale => rfl
  | failed _ _ _ store | overtaken _ _ _ _ store | unloaded _ _ _ _ _ store => exact store
  | confirmed guard own superseded =>
    rcases other with hok | hnone
    · cases hok
    · have hsome := EchoGuard.outstanding?_eq_some.mpr ⟨_, guard, superseded, own, rfl⟩
      exact absurd hsome (hnone _)

end Client

namespace Session

variable {η : Type} {start s t : Session η} {log more : List Report} {id : String} {d : Document}
  {now : Nat}

/-- A save that is begun has a new number, so none with an earlier one becomes outstanding. -/
theorem Tried.outstanding {r : Except SyncError String} {c' : Client} {n : Nat} (h : s.Tried r c')
    (hn : n ≤ s.client.counter) (hd : c'.guard.outstanding? = some (requestId n, d)) :
    s.client.guard.outstanding? = some (requestId n, d) := by
  obtain ⟨save', hg, superseded, own', document⟩ := EchoGuard.outstanding?_eq_some.mp hd
  cases h with
  | declined _ _ guard =>
    rcases guard with guard | guard
    · exact guard ▸ hd
    · cases hg.symm.trans guard
  | refused _ guard => cases hg.symm.trans guard
  | sent _ save own _ guard =>
    cases hg.symm.trans guard
    have := requestId_inj.mp (own'.symm.trans own)
    omega

variable [Transport η]

theorem Steps.config_eq (steps : Steps start log s) : s.client.config = start.client.config := by
  induction steps with
  | start => rfl
  | edit _ _ ih | host _ _ ih => exact ih
  | @load log s path now _ ih =>
    rw [← ih]
    unfold Session.load
    dsimp only [Client.nextRequest]
    repeat' split
    all_goals rfl
  | @beginSave log s now _ ih =>
    have tried := tried_beginSave s now
    rw [← ih]
    generalize (s.beginSave now).1 = r, (s.beginSave now).2.client = c' at tried ⊢
    cases tried with
    | declined _ _ _ _ _ _ config | refused _ _ _ _ _ config | sent _ _ _ _ _ _ _ _ _ _ config =>
      exact config
  | handle m now _ ih => exact (Client.handled_handle rfl).config_eq.trans ih

theorem Steps.counter_le (steps : Steps start log s) :
    start.client.counter ≤ s.client.counter := by
  induction steps with
  | start => exact Nat.le_refl _
  | edit _ _ ih | host _ _ ih => exact ih
  | @load log s path now _ ih =>
    obtain ⟨-, hcounter, -⟩ := load_frame s path now
    omega
  | @beginSave log s now _ ih => exact Nat.le_trans ih (tried_beginSave s now).counter_le
  | @handle log s m now _ ih => exact (Client.counter_handle s.client m now).symm ▸ ih

theorem beginSave_inFlight {save : InFlightSave} (untimed : s.client.config.echoTimeout = none)
    (hg : s.client.guard = .awaitingEcho save) (now : Nat) :
    s.beginSave now = (.error (.saveInFlight save.requestId), s) := by
  simp [beginSave, expireGuard_untimed s.client now untimed, hg, EchoGuard.inFlight?]

/-- A save begun before stays outstanding exactly as long as nothing that ends it is reported. -/
theorem Steps.outstanding_iff {n : Nat} (steps : Steps start log s)
    (grounded : start.client.Grounded) (untimed : start.client.config.echoTimeout = none)
    (hn : n ≤ start.client.counter) :
    s.client.guard.outstanding? = some (requestId n, d) ↔
      start.client.guard.outstanding? = some (requestId n, d) ∧
        log.countP (·.ends (requestId n)) = 0 := by
  -- A load keeps the guard and a begun save takes a number of its own, so messages are all that
  -- is left to tell apart.
  induction steps with
  | start => simp
  | edit _ _ ih | host _ _ ih => exact ih
  | @load log s path now _ ih =>
    obtain ⟨hguard, -⟩ := load_frame s path now
    simpa only [hguard] using ih
  | @beginSave log s now steps ih =>
    have hends : (log ++ [Report.save (s.beginSave now).1]).countP (·.ends (requestId n)) =
        log.countP (·.ends (requestId n)) := by
      simp [List.countP_append, Report.ends, Report.brings, Report.isReplaced]
    rw [hends]
    refine Iff.trans ?_ ih
    constructor
    · exact (tried_beginSave s now).outstanding (Nat.le_trans hn steps.counter_le)
    · intro hd
      obtain ⟨save, hg, -⟩ := EchoGuard.outstanding?_eq_some.mp hd
      rw [beginSave_inFlight (steps.config_eq ▸ untimed) hg]
      exact hd
  | @handle log s m now steps ih =>
    have handled : s.client.Handled now m (s.client.handle m now).1 (s.client.handle m now).2 :=
      Client.handled_handle rfl
    rw [List.countP_append, List.countP_singleton]
    constructor
    · intro hd
      have before := handled.outstanding hd
      have hends := (handled.outstanding_iff (steps.grounded grounded)
        (steps.config_eq ▸ untimed) before).mp hd
      obtain ⟨hstart, hcount⟩ := ih.mp before
      exact ⟨hstart, by simp [hcount, hends]⟩
    · rintro ⟨hstart, hcount⟩
      have before := ih.mpr ⟨hstart, by omega⟩
      refine (handled.outstanding_iff (steps.grounded grounded) (steps.config_eq ▸ untimed)
        before).mpr (Bool.eq_false_iff.mpr fun hends => ?_)
      rw [if_pos hends] at hcount
      omega

/-- A load does not settle an earlier save. If the save was outstanding, and neither its result nor
a change that replaced the store has been taken in since, a result that is ok makes its document the
snapshot: what was loaded is then dirty wherever it differs, and going back leads to what was saved.
No other result of an earlier save changes the store. -/
theorem Steps.rebased_iff_outstanding {store : Store} {config : SyncConfig} {host : η}
    (before : Steps ⟨{ store, config }, host⟩ log s) (untimed : config.echoTimeout = none)
    (begun : .save (.ok id) ∈ log) (path : Option String)
    (after : Steps (s.load path now).2 more t) (ok : Bool) (e : Option HostError) (later : Nat) :
    let settled := (t.client.handle (.persistResult id ok e) later).2.store
    (∀ d, s.client.guard.outstanding? = some (id, d) → more.countP (·.ends id) = 0 → ok = true →
      ∃ l, t.client.store.loaded = some l ∧
        settled = { t.client.store with
          loaded := some { l with snapshot := d, repaired := false } } ∧
        settled.isDirty = !l.current.same d ∧
        (settled.isDirty = true → ∃ restored, settled.restore = .ok restored ∧
          restored.get = .ok d)) ∧
    ((∀ d, s.client.guard.outstanding? ≠ some (id, d)) ∨ more.countP (·.ends id) ≠ 0 ∨ ok = false →
      settled = t.client.store) := by
  intro settled
  obtain ⟨n, hn, rfl⟩ := before.numbered begun
  obtain ⟨hguard, hcounter, -⟩ := load_frame s path now
  have loaded := before.load path now
  have grounded := loaded.grounded (Client.grounded_of_idle rfl)
  have kept : ∀ d, t.client.guard.outstanding? = some (requestId n, d) ↔
      s.client.guard.outstanding? = some (requestId n, d) ∧
        more.countP (·.ends (requestId n)) = 0 := by
    intro d
    rw [after.outstanding_iff grounded (loaded.config_eq ▸ untimed) (by omega), hguard]
  have handled : t.client.Handled later (.persistResult (requestId n) ok e)
      (t.client.handle (.persistResult (requestId n) ok e) later).1
      (t.client.handle (.persistResult (requestId n) ok e) later).2 := Client.handled_handle rfl
  constructor
  · rintro d outstanding nothing rfl
    obtain ⟨l, hl, hsettled⟩ := handled.rebased (after.grounded grounded)
      ((kept d).mpr ⟨outstanding, nothing⟩)
    change settled = _ at hsettled
    clear_value settled
    subst hsettled
    exact ⟨l, hl, rfl, rfl, fun hdirty => Store.restore_of_dirty rfl hdirty⟩
  · intro other
    refine handled.store_of_result ?_
    rcases other with hnone | hended | hok
    · exact .inr fun d hd => hnone d ((kept d).mp hd).1
    · exact .inr fun d hd => hended ((kept d).mp hd).2
    · exact .inl hok

-- ---------------------------------------------------------------------------
-- Loading what another writer has made of it
-- ---------------------------------------------------------------------------

theorem exists_steps_echoed {s : Session MemoryHost} {save : InFlightSave}
    (untimed : s.client.config.echoTimeout = none) (hd : s.host.document.WellFormed)
    (hf : s.host.loadFailure = none) (hg : s.client.guard = .awaitingEcho save)
    (fresh : save.echoSeen = false) :
    ∃ more t, Steps (s.load none 0).2 more t ∧ (∀ id, more.countP (·.ends id) = 0) ∧
      t.client.store = (s.client.store.install s.host.document).1 := by
  have loaded : Steps s [] (s.load none 0).2 := Steps.start.load none 0
  obtain ⟨hguard, -⟩ := load_frame s none 0
  have handled := Client.handle_echo save.document 0 (loaded.config_eq ▸ untimed)
    (hguard.trans hg) fresh
  refine ⟨_, _, Steps.start.handle (.changed save.document) 0, fun id => ?_, ?_⟩
  · rw [handled]
    simp [Report.ends, Report.brings, Report.isReplaced]
  · rw [handled, load_eq none 0 hd hf]
    rfl

def norwegian : Document := { language := "no" }

theorem norwegian_wellFormed : norwegian.WellFormed :=
  Document.wellFormed_iff.mpr Document.wellFormed_default.parts

/-- The result that comes after the load takes the snapshot back to what was saved. -/
theorem rebased_iff_outstanding_reloaded :
    ∃ (s t : Session MemoryHost) (log more : List Report) (id : String),
      Steps (opened .builtIn ⟨fun _ => "new", 0⟩ ⟨none, 10000⟩ {}) log s ∧
      .save (.ok id) ∈ log ∧ s.client.guard.outstanding? = some (id, {}) ∧
      Steps (s.load none 0).2 more t ∧ more.countP (·.ends id) = 0 ∧
      t.client.store.get = .ok norwegian ∧ t.client.store.isDirty = false ∧
      (t.client.handle (.persisted id) 0).2.store.isDirty = true ∧
      ∃ restored, (t.client.handle (.persisted id) 0).2.store.restore = .ok restored ∧
        restored.get = .ok {} := by
  let start := opened .builtIn ⟨fun _ => "new", 0⟩ ⟨none, 10000⟩ {}
  have loaded : Steps start [] (start.load none 0).2 := Steps.start.load none 0
  rw [load_eq none 0 Document.wellFormed_default rfl] at loaded
  have begun := loaded.beginSave 0
  rw [beginSave_eq 0 rfl rfl rfl Document.wellFormed_default rfl rfl] at begun
  have overtaken := begun.host ({ document := norwegian } : MemoryHost)
  obtain ⟨s, log, id, save, before, saved, hguard, fresh, own, hdocument, hfailure, hcatalog⟩ :
      ∃ s log id save, Steps start log s ∧ .save (.ok id) ∈ log ∧
        s.client.guard = .awaitingEcho save ∧ save.echoSeen = false ∧
        s.client.guard.outstanding? = some (id, {}) ∧ s.host.document = norwegian ∧
        s.host.loadFailure = none ∧ s.client.store.catalog = .empty :=
    ⟨_, _, _, _, overtaken, List.mem_cons_self, rfl, rfl, rfl, rfl, rfl, rfl⟩
  obtain ⟨more, t, after, nothing, store⟩ :=
    exists_steps_echoed (congrArg SyncConfig.echoTimeout before.config_eq)
      (hdocument ▸ norwegian_wellFormed) hfailure hguard fresh
  obtain ⟨l, hl, -, dirty, restored⟩ :=
    (before.rebased_iff_outstanding rfl saved none after true none 0).1 {} own (nothing _) rfl
  have hget : t.client.store.get = .ok norwegian ∧ t.client.store.isDirty = false := by
    simp only [store, hdocument, Store.get, Store.isDirty, Store.install_loaded, hcatalog]
    exact ⟨rfl, rfl⟩
  obtain ⟨l', hl', hcurrent⟩ := Store.get_eq_ok hget.1
  cases hl.symm.trans hl'
  have hdirty : _ = true := dirty.trans (by rw [hcurrent]; rfl)
  exact ⟨s, t, log, more, id, before, saved, own, after, nothing id, hget.1, hget.2, hdirty,
    restored hdirty⟩

/-- What was saved before comes back by the result of the save, although it was loaded over. -/
theorem Run.undone {moves : MemoryHost → MemoryHost → Prop} {start s : Session MemoryHost}
    {log : List (Event MemoryHost)} {save : InFlightSave} {rest : List HostMessage}
    (run : Run moves start log s) (untimed : s.client.config.echoTimeout = none)
    (hd : s.host.document.WellFormed) (hf : s.host.loadFailure = none)
    (hg : s.client.guard = .awaitingEcho save)
    (fresh : save.echoSeen = false ∧ save.superseded = false)
    (hin : s.host.inbox = .changed save.document :: .persisted save.requestId :: rest) :
    ∃ reloaded c t l,
      s.load none 0 = (.ok (s.client.store.install s.host.document).2, reloaded) ∧
      Run moves start (log ++
        [.taken reloaded.client (.changed save.document) (.ok (.echoSuppressed save.requestId)) c,
          .taken c (.persisted save.requestId) (.ok (.saveConfirmed save.requestId)) t.client]) t ∧
      reloaded.client.store = (s.client.store.install s.host.document).1 ∧
      reloaded.client.store.loaded = some l ∧ c.store = reloaded.client.store ∧
      t.client.store = { reloaded.client.store with
        loaded := some { l with snapshot := save.document, repaired := false } } ∧
      t.host.document = s.host.document := by
  have loaded := run.load none 0
  rw [load_eq none 0 hd hf] at loaded
  have echoed := loaded.takeEcho 0 hin untimed hg fresh.1
  have settled := echoed.takePersisted 0 rfl rfl rfl fresh.2 (Store.install_loaded _ _)
  simp only [List.append_assoc, List.singleton_append] at settled
  exact ⟨_, Client.echoed _ save, ⟨Client.confirmed _ _ _ 0, _⟩, _, load_eq none 0 hd hf, settled,
    rfl, Store.install_loaded _ _, rfl, rfl, rfl⟩

/-- Once both messages of the save are in, the store is dirty without an edit, although it holds
what was loaded and what the host has. Going back loses the other writer's change. -/
theorem load_undone_by_earlier_save :
    ∃ (s reloaded t : Session MemoryHost) (c : Client) (log : List (Event MemoryHost))
      (id : String),
      Run (HostCommand.Moves fun _ => True)
        (opened .builtIn ⟨fun _ => "new", 0⟩ ⟨none, 10000⟩ {}) log s ∧
      (∃ b, .begun b id ∈ log) ∧ s.load none 0 = (.ok [], reloaded) ∧
      reloaded.client.store.get = .ok norwegian ∧ reloaded.client.store.isDirty = false ∧
      Run (HostCommand.Moves fun _ => True)
        (opened .builtIn ⟨fun _ => "new", 0⟩ ⟨none, 10000⟩ {})
        (log ++ [.taken reloaded.client (.changed {}) (.ok (.echoSuppressed id)) c,
          .taken c (.persisted id) (.ok (.saveConfirmed id)) t.client]) t ∧
      c.store = reloaded.client.store ∧ t.client.store.get = .ok norwegian ∧
      t.host.document = norwegian ∧ t.client.store.isDirty = true ∧
      ∃ restored, t.client.store.restore = .ok restored ∧ restored.get = .ok {} := by
  let start := opened .builtIn ⟨fun _ => "new", 0⟩ ⟨none, 10000⟩ {}
  have loaded : Run (HostCommand.Moves fun _ => True) start [] (start.load none 0).2 :=
    .load none 0 .start
  rw [load_eq none 0 Document.wellFormed_default rfl] at loaded
  obtain ⟨save, requests, ⟨document, fresh⟩, begun⟩ :=
    loaded.beginAccepted 0 rfl rfl rfl Document.wellFormed_default rfl rfl
  have held := begun.host ⟨.pause, trivial, rfl⟩
  have changed := held.host ⟨.external norwegian, trivial, rfl⟩
  obtain ⟨reloaded, c, t, l, hload, settled, store, hl, same, store', hdocument⟩ :=
    changed.undone rfl norwegian_wellFormed rfl rfl fresh (by rw [document]; rfl)
  rw [document] at settled store'
  have hget : reloaded.client.store.get = .ok norwegian ∧
      reloaded.client.store.isDirty = false := by
    rw [store]
    exact ⟨rfl, rfl⟩
  obtain ⟨l', hl', hcurrent⟩ := Store.get_eq_ok hget.1
  cases hl.symm.trans hl'
  have hdirty : t.client.store.isDirty = true := by
    rw [store']
    change (!l.current.same _) = true
    rw [hcurrent]
    rfl
  have hloaded := congrArg Store.loaded store'
  exact ⟨_, reloaded, t, c, _, save.requestId, changed, ⟨_, List.mem_cons_self⟩, hload, hget.1,
    hget.2, settled, same, by simp [Store.get, hloaded, hcurrent], hdocument, hdirty,
    Store.restore_of_dirty hloaded hdirty⟩

end Session

end ShellSettings
