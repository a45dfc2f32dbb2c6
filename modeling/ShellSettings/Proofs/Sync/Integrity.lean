import ShellSettings.Proofs.Sync.MemoryRun

/-!
# Dangling references and saves in flight

A store is integral if nothing dangles in its current document or its snapshot.
Loads, edits and catalogs keep it so. A save that is confirmed puts the document
that was handed over into the snapshot, as it was before any catalog that came
in the meantime; that is the one way to lose integrity
(`Run.integral_iff_confirmed_integral`).
-/

namespace ShellSettings

def Store.Integral (s : Store) : Prop :=
  ∀ l, s.loaded = some l → l.current.dangling s.catalog = [] ∧ l.snapshot.dangling s.catalog = []

namespace Store

variable {s t : Store} {d : Document}

theorem integral_install (s : Store) (d : Document) : (s.install d).1.Integral :=
  both_install (P := fun c d => d.dangling c = []) (Document.dangling_repair _ _)

theorem Integral.edited (h : s.Integral) (he : s.Edited t) : t.Integral :=
  Both.edited (P := fun c d => d.dangling c = []) h he (fun _ _ _ _ dangling _ => dangling)
    fun _ _ _ _ => Document.dangling_retain_publish

theorem Integral.markSaved (h : s.Integral) (hd : d.dangling s.catalog = [])
    (hs : s.markSaved d = .ok t) : t.Integral :=
  Both.markSaved (P := fun c d => d.dangling c = []) h hd hs

end Store

namespace Session

/-- The client has taken in a result that makes the document of this save the snapshot. -/
def Event.Confirms (save : InFlightSave) : Event MemoryHost → Prop
  | .taken c m _ _ => c.guard = .awaitingEcho save ∧ save.superseded = false ∧
    ∃ e, m = .persistResult save.requestId true e
  | .begun _ _ => False

theorem snapshot_of_confirms {c c' : Client} {m : HostMessage} {now : Nat}
    {outcome : Except SyncError Outcome} {save : InFlightSave} (hc : c.Grounded)
    (h : c.Handled now m outcome c') (hs : (Event.taken c m outcome c').Confirms save) :
    ∃ l, c.store.loaded = some l ∧
      c'.store = { c.store with
        loaded := some { l with snapshot := save.document, repaired := false } } := by
  obtain ⟨hguard, hsup, e, rfl⟩ := hs
  obtain ⟨l, hl⟩ := hc save hguard
  obtain ⟨-, hstore, -⟩ := h.confirmed_result hc hguard hsup
  exact ⟨l, hl, by simpa [Store.markSaved, hl, eq_comm] using hstore⟩

theorem integral_handled {c c' : Client} {m : HostMessage} {now : Nat}
    {outcome : Except SyncError Outcome} (hc : c.store.Integral)
    (h : c.Handled now m outcome c')
    (hconfirmed : ∀ save, (Event.taken c m outcome c').Confirms save →
      save.document.dangling c.store.catalog = []) : c'.store.Integral := by
  cases h with
  | suppressed _ store | failed _ _ _ store | overtaken _ _ _ _ store
  | unloaded _ _ _ _ _ store => exact store ▸ hc
  | replaced _ store => exact store ▸ Store.integral_install _ _
  | stale => exact hc
  | @confirmed save id e _ guard own superseded _ store =>
    exact hc.markSaved (hconfirmed save ⟨guard, superseded, e, own ▸ rfl⟩) store
  | catalog _ store => exact store ▸ Store.Integral.edited hc (.published _ rfl)

-- ---------------------------------------------------------------------------
-- Runs
-- ---------------------------------------------------------------------------

section Runs

variable {policy : RestartPolicy} {ids : IdSource} {config : SyncConfig} {document : Document}
  {log : List (Event MemoryHost)} {s : Session MemoryHost}

theorem Run.grounded
    (run : Run (HostCommand.Moves fun _ => True) (opened policy ids config { document }) log s) :
    ∀ c m outcome c', .taken c m outcome c' ∈ log → c.Grounded := by
  refine (run.memory_induction (motive := fun log _ =>
    ∀ c m outcome c', .taken c m outcome c' ∈ log → c.Grounded) (fun _ => rfl)
    (Client.grounded_of_idle rfl) ?initial ?edit ?host ?load ?refuse ?arm ?take).1
  case initial => exact fun _ _ _ _ h => absurd h List.not_mem_nil
  case edit => exact fun ih _ => ih
  case host => exact fun ih _ _ => ih
  case load => exact fun ih _ _ _ => ih
  case refuse => exact fun ih _ => ih
  case arm => exact fun ih _ => by simpa using ih
  case take =>
    intro log s now m rest outcome c ih grounded _ handled c₀ m₀ o₀ c₁ h
    rcases List.mem_append.mp h with h | h
    · exact ih _ _ _ _ h
    · cases List.mem_singleton.mp h
      exact grounded

theorem Run.integral
    (run : Run (HostCommand.Moves fun _ => True) (opened policy ids config { document }) log s)
    (hconfirmed : ∀ c m outcome c' save, .taken c m outcome c' ∈ log →
      (Event.taken c m outcome c').Confirms save →
      save.document.dangling c.store.catalog = []) :
    s.client.store.Integral ∧
      ∀ c m outcome c', .taken c m outcome c' ∈ log → c'.store.Integral := by
  revert hconfirmed
  refine (run.memory_induction (motive := fun log s =>
    (∀ c m outcome c' save, .taken c m outcome c' ∈ log →
      (Event.taken c m outcome c').Confirms save → save.document.dangling c.store.catalog = []) →
    s.client.store.Integral ∧ ∀ c m outcome c', .taken c m outcome c' ∈ log → c'.store.Integral)
    (fun _ => rfl) (Client.grounded_of_idle rfl) ?initial ?edit ?host ?load ?refuse ?arm ?take).1
  case initial =>
    exact fun _ => ⟨fun _ h => (nomatch h), fun _ _ _ _ h => absurd h List.not_mem_nil⟩
  case edit => exact fun ih he hconfirmed => ⟨(ih hconfirmed).1.edited he, (ih hconfirmed).2⟩
  case host => exact fun ih _ _ => ih
  case load =>
    intro log s c requests ih _ _ hstore hconfirmed
    refine ⟨?_, (ih hconfirmed).2⟩
    rcases hstore with hstore | ⟨d, -, hstore⟩
    · exact hstore ▸ (ih hconfirmed).1
    · exact hstore ▸ Store.integral_install _ _
  case refuse =>
    intro log s e s' ih hbegun hconfirmed
    cases hbegun with
    | refused store => exact ⟨store ▸ (ih hconfirmed).1, (ih hconfirmed).2⟩
  case arm =>
    intro log s id s' ih hbegun hconfirmed
    have ih := ih fun c m o c' save h => hconfirmed c m o c' save (List.mem_append_left _ h)
    cases hbegun with
    | armed _ _ _ _ store => exact ⟨store ▸ ih.1, by simpa using ih.2⟩
  case take =>
    intro log s now m rest outcome c ih _ _ handled hconfirmed
    have ih := ih fun c m o c' save h => hconfirmed c m o c' save (List.mem_append_left _ h)
    have hc := integral_handled ih.1 handled fun save =>
      hconfirmed _ _ _ _ save (List.mem_append_right _ List.mem_cons_self)
    refine ⟨hc, fun c₀ m₀ o₀ c₁ h => ?_⟩
    rcases List.mem_append.mp h with h | h
    · exact ih.2 _ _ _ _ h
    · cases List.mem_singleton.mp h
      exact hc

/-- Both documents are without dangling references all along exactly if no save is confirmed in
whose document something dangles by then. Where one is, its document becomes the snapshot, and
going back to the snapshot brings back what the catalogs have dropped. -/
theorem Run.integral_iff_confirmed_integral
    (run : Run (HostCommand.Moves fun _ => True) (opened policy ids config { document }) log s) :
    ((s.client.store.Integral ∧
        ∀ c m outcome c', .taken c m outcome c' ∈ log → c'.store.Integral) ↔
      ∀ c m outcome c' save, .taken c m outcome c' ∈ log →
        (Event.taken c m outcome c').Confirms save →
        save.document.dangling c.store.catalog = []) ∧
    ∀ c m outcome c' save, .taken c m outcome c' ∈ log →
      (Event.taken c m outcome c').Confirms save →
      ∃ l, c'.store.loaded = some l ∧ l.snapshot = save.document ∧
        c'.store.catalog = c.store.catalog ∧
        (l.isDirty = true → ∃ t, c'.store.restore = .ok t ∧ t.get = .ok save.document) := by
  have hsnapshot : ∀ c m outcome c' save, .taken c m outcome c' ∈ log →
      (Event.taken c m outcome c').Confirms save → ∃ l, c.store.loaded = some l ∧
        c'.store = { c.store with
          loaded := some { l with snapshot := save.document, repaired := false } } := by
    intro c m outcome c' save h hs
    obtain ⟨now, hhandle⟩ := run.handle_of_taken h
    exact snapshot_of_confirms (run.grounded _ _ _ _ h) (Client.handled_handle hhandle) hs
  refine ⟨⟨?_, run.integral⟩, ?_⟩
  · rintro ⟨-, hall⟩ c m outcome c' save h hs
    obtain ⟨l, hl, hstore⟩ := hsnapshot c m outcome c' save h hs
    have hintegral := hall c m outcome c' h
    rw [hstore] at hintegral
    exact (hintegral _ rfl).2
  · intro c m outcome c' save h hs
    obtain ⟨l, hl, hstore⟩ := hsnapshot c m outcome c' save h hs
    rw [hstore]
    exact ⟨_, rfl, rfl, rfl, fun hdirty => ⟨_, if_pos hdirty, rfl⟩⟩

end Runs

-- ---------------------------------------------------------------------------
-- A catalog while a save is in flight
-- ---------------------------------------------------------------------------

def twoThemes : Document := { themes := ["A", "B"] }

def firstTheme : Feed := Feed.ofIds .theme ["A"]

theorem exists_run_confirming_dropped :
    ∃ log s c m outcome save, Run (HostCommand.Moves fun _ => True)
        (opened .builtIn ⟨fun _ => "", 0⟩ { echoTimeout := none } { document := twoThemes }) log s ∧
      .taken c m outcome s.client ∈ log ∧
      (Event.taken c m outcome s.client).Confirms save ∧ save.document = twoThemes ∧
      c.store.catalog = Catalog.empty.publish .theme firstTheme.ids ∧
      s.client.store.loaded = some {
        current := { themes := ["A"] }, snapshot := twoThemes, revision := 1, repaired := false } ∧
      s.client.store.catalog = Catalog.empty.publish .theme firstTheme.ids := by
  have wellFormed : twoThemes.WellFormed :=
    Document.wellFormed_iff.mpr Document.wellFormed_default.parts
  let start := opened .builtIn ⟨fun _ => "", 0⟩ { echoTimeout := none } { document := twoThemes }
  have loaded : Run (HostCommand.Moves fun _ => True) start [] (start.load none 0).2 :=
    .load none 0 .start
  rw [load_eq none 0 wellFormed rfl] at loaded
  have begun := loaded.beginSave 0
  rw [beginSave_eq 0 rfl rfl rfl wellFormed rfl rfl] at begun
  have dropped := begun.edit (c := .applyCatalog firstTheme) trivial
  have echoed := dropped.takeEcho 0 rfl rfl rfl rfl
  have confirmed := echoed.takePersisted 0 rfl rfl rfl rfl rfl
  exact ⟨_, _, _, _, _, _, confirmed, List.mem_append_right _ List.mem_cons_self,
    ⟨rfl, rfl, none, rfl⟩, rfl, rfl, rfl, rfl⟩

theorem integral_iff_confirmed_integral_two_themes :
    ∃ log s c m outcome save, Run (HostCommand.Moves fun _ => True)
        (opened .builtIn ⟨fun _ => "", 0⟩ { echoTimeout := none } { document := twoThemes }) log s ∧
      .taken c m outcome s.client ∈ log ∧
      (Event.taken c m outcome s.client).Confirms save ∧
      save.document.dangling c.store.catalog = [.theme "B"] ∧
      ¬ (s.client.store.Integral ∧
        ∀ c m outcome c', .taken c m outcome c' ∈ log → c'.store.Integral) ∧
      ∃ l, s.client.store.loaded = some l ∧ l.snapshot = twoThemes := by
  obtain ⟨log, s, c, m, outcome, save, run, htaken, hconfirms, hdocument, hcatalog, -, -⟩ :=
    exists_run_confirming_dropped
  have hdangling : save.document.dangling c.store.catalog = [.theme "B"] := by
    rw [hdocument, hcatalog]
    decide
  obtain ⟨hiff, hsnapshot⟩ := run.integral_iff_confirmed_integral
  refine ⟨log, s, c, m, outcome, save, run, htaken, hconfirms, hdangling, fun hall => ?_, ?_⟩
  · have hnil := hiff.mp hall c m outcome s.client save htaken hconfirms
    simp [hdangling] at hnil
  · obtain ⟨l, hl, hsnap, -⟩ := hsnapshot c m outcome s.client save htaken hconfirms
    exact ⟨l, hl, hsnap.trans hdocument⟩

/-- Going back to the snapshot makes a document current that refers to the theme dropped. -/
theorem restore_brings_dropped_theme_back :
    ∃ log s t, Run (HostCommand.Moves fun _ => True)
        (opened .builtIn ⟨fun _ => "", 0⟩ { echoTimeout := none } { document := twoThemes }) log s ∧
      ¬ s.client.store.Integral ∧ s.client.store.restore = .ok t ∧ t.get = .ok twoThemes ∧
      twoThemes.dangling t.catalog = [.theme "B"] := by
  obtain ⟨log, s, -, -, -, -, run, -, -, -, -, hl, hcatalog⟩ := exists_run_confirming_dropped
  have hdangling : twoThemes.dangling s.client.store.catalog = [.theme "B"] := by
    rw [hcatalog]
    decide
  refine ⟨log, s, { s.client.store with loaded := some {
    current := twoThemes, snapshot := twoThemes, revision := 2, repaired := false } }, run,
    fun hs => ?_, ?_, rfl, hdangling⟩
  · have hnil := (hs _ hl).2
    simp [hdangling] at hnil
  · simp only [Store.restore, hl]
    rfl

end Session

end ShellSettings
