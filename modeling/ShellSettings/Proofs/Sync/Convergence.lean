import ShellSettings.Proofs.Sync.MemoryRun

/-!
# What is left when everything has been delivered

The guard, the save in flight, the queue of changes and the snapshot depend on
each other (`Tracks`): whatever order saves, reloads, catalogs and changes of
another writer come in, the last change on its way is the document that the host
holds, and when none is left the snapshot is that document or is known to differ
from it. So once nothing is left to deliver the guard is idle, and a store that
needs no saving shows the document of the host (`Run.converged`).
-/

namespace ShellSettings

-- ---------------------------------------------------------------------------
-- Snapshots of the host's document
-- ---------------------------------------------------------------------------

namespace Store

variable {s t : Store} {d : Document}

/-- The snapshot is the document of the host, or references were dropped that it still has. -/
def Follows (s : Store) (d : Document) : Prop :=
  ∀ l, s.loaded = some l → l.repaired = true ∨ l.snapshot = d.normalize

def Sound (s : Store) : Prop :=
  ∀ l, s.loaded = some l → (l.current.WellFormed ∧ l.current.Normalized) ∧
    l.snapshot.WellFormed ∧ l.snapshot.Normalized

theorem follows_install (s : Store) (d : Document) : (s.install d).1.Follows d := by
  intro l hl
  obtain rfl := Option.some.inj (hl.symm.trans (install_loaded s d))
  by_cases hdropped : (d.normalize.repair s.catalog).2 = []
  · exact .inr (Document.repair_eq_self hdropped)
  · exact .inl (by simp [hdropped])

theorem Follows.edited (h : s.Follows d) (he : s.Edited t) : t.Follows d := by
  intro l' hl'
  cases he with
  | same loaded => exact h l' (loaded ▸ hl')
  | committed next before loaded | restored before loaded =>
    cases loaded.symm.trans hl'
    have hbefore := h _ before
    exact hbefore
  | published feed eq =>
    cases hl : s.loaded with
    | none => simp [eq, applyCatalog_unloaded feed hl] at hl'
    | some l =>
      obtain ⟨revision, repaired, hpruned, hrepaired⟩ := applyCatalog_loaded feed hl
      cases hpruned.symm.trans (eq ▸ hl')
      rcases hrepaired with hrepaired | ⟨hrepaired, hsnapshot⟩
      · exact .inl hrepaired
      · exact (h l hl).imp hrepaired.trans hsnapshot.trans

theorem follows_markSaved (hd : d.Normalized) (h : s.markSaved d = .ok t) : t.Follows d := by
  unfold markSaved at h
  split at h
  · cases h
  · cases h
    intro l hl
    cases hl
    exact .inr hd.symm

theorem sound_install (hd : d.WellFormed) : (s.install d).1.Sound :=
  both_install (P := fun _ d => d.WellFormed ∧ d.Normalized)
    ⟨hd.normalize.repair, (Document.normalized_normalize d).repair⟩

theorem Sound.edited (h : s.Sound) (he : s.Edited t) : t.Sound :=
  Both.edited (P := fun _ d => d.WellFormed ∧ d.Normalized) h he
    (fun l _ hl normalized _ wellFormed => ⟨wellFormed (h l hl).1.1, normalized⟩)
    fun _ _ _ _ hd => ⟨hd.1.retain, hd.2.retain⟩

theorem Sound.markSaved (h : s.Sound) (hd : d.WellFormed) (hn : d.Normalized)
    (hs : s.markSaved d = .ok t) : t.Sound :=
  Both.markSaved (P := fun _ d => d.WellFormed ∧ d.Normalized) h ⟨hd, hn⟩ hs

end Store

namespace Session

def changes (ds : List Document) : List HostMessage := ds.map .changed

/-- What is expected of a save in flight, with the changes that come before its result and those
that come after it. -/
structure Expects (store : Store) (host : Document) (save : InFlightSave)
    (before after : List Document) : Prop where
  -- A save that was overtaken leaves no trace of its own.
  overtaken : save.superseded = true →
    save.echoSeen = true ∧ (before = [] → after = [] → store.Follows host)
  -- Otherwise the host has the document that was saved, unless a change is still to come.
  latest : save.superseded = false → after = [] → host = save.document
  -- An echo that comes after the result comes before any later change.
  echo : save.echoSeen = false → before = [] → ∃ rest, after = save.document :: rest

/-- What the guard and the store make of the changes on their way, the last of which has the
document of the host. -/
inductive Tracks (store : Store) (host : Document) : EchoGuard → List HostMessage → Prop
  | idle {ds} (last : ∀ d ∈ ds.getLast?, d = host) (settled : ds = [] → store.Follows host) :
    Tracks store host .idle (changes ds)
  | late {late : SettledSave} {d ds} (digest : d.digest = late.digest)
    (last : ∀ d' ∈ (d :: ds).getLast?, d' = host) (settled : ds = [] → store.Follows host) :
    Tracks store host (.awaitingLateEcho late) (changes (d :: ds))
  | waiting {save : InFlightSave} {before after}
    (last : ∀ d ∈ (before ++ after).getLast?, d = host)
    (expects : Expects store host save before after) :
    Tracks store host (.awaitingEcho save)
      (changes before ++ .persisted save.requestId :: changes after)

variable {store store' : Store} {host d : Document} {g g' : EchoGuard}
  {ms : List HostMessage}

theorem tracks_nil (h : store.Follows host) : Tracks store host .idle [] :=
  (Tracks.idle (by simp) fun _ => h : Tracks store host .idle (changes []))

theorem Tracks.withStore (h : Tracks store host g ms)
    (hs : store.Follows host → store'.Follows host) : Tracks store' host g ms := by
  cases h with
  | idle last settled => exact .idle last fun hnil => hs (settled hnil)
  | late digest last settled => exact .late digest last fun hnil => hs (settled hnil)
  | waiting last expects =>
    refine .waiting last ⟨fun hsup => ?_, expects.latest, expects.echo⟩
    exact ⟨(expects.overtaken hsup).1, fun hb ha => hs ((expects.overtaken hsup).2 hb ha)⟩

theorem Tracks.external (h : Tracks store host g ms) (d : Document) :
    Tracks store d g (ms ++ [.changed d]) := by
  cases h with
  | @idle ds =>
    rw [show changes ds ++ [.changed d] = changes (ds ++ [d]) by simp [changes]]
    exact .idle (by simp [eq_comm]) (by simp)
  | @late late d' ds digest =>
    rw [show changes (d' :: ds) ++ [.changed d] = changes (d' :: (ds ++ [d])) by simp [changes]]
    exact .late digest (by simp [List.getLast?_cons, eq_comm]) (by simp)
  | @waiting save before after last expects =>
    rw [show changes before ++ .persisted save.requestId :: changes after ++ [.changed d] =
      changes before ++ .persisted save.requestId :: changes (after ++ [d]) by simp [changes]]
    refine .waiting (by simp [← List.append_assoc, eq_comm]) ⟨fun hsup => ?_, ?_, ?_⟩
    · exact ⟨(expects.overtaken hsup).1, fun _ => by simp⟩
    · simp
    · intro fresh hb
      obtain ⟨rest, rfl⟩ := expects.echo fresh hb
      exact ⟨rest ++ [d], rfl⟩

theorem Tracks.changes_of_free (h : Tracks store host g ms) (hg : g.inFlight? = none) :
    ∃ ds, ms = changes ds := by
  cases h with
  | idle | late => exact ⟨_, rfl⟩
  | waiting => cases hg

theorem tracks_submitted {ds : List Document} {save : InFlightSave} {h : MemoryHost}
    (hl : h.Lossless) (hdoc : save.document = d) (fresh : save.superseded = false) :
    Tracks store d (.awaitingEcho save) (changes ds ++ h.answers save.requestId d) := by
  -- The echo is the last change on its way, after the result or before it.
  rw [hl.answers_eq]
  split
  · rw [show changes ds ++ [.persisted save.requestId, .changed d] =
      changes ds ++ .persisted save.requestId :: changes [d] from rfl]
    refine .waiting (by simp) ⟨by simp [fresh], by simp, fun _ _ => ⟨[], by rw [hdoc]⟩⟩
  · rw [show changes ds ++ [.changed d, .persisted save.requestId] =
      changes (ds ++ [d]) ++ .persisted save.requestId :: changes [] by simp [changes]]
    refine .waiting (by simp) ⟨by simp [fresh], fun _ _ => hdoc.symm, by simp⟩

-- ---------------------------------------------------------------------------
-- Taking messages in
-- ---------------------------------------------------------------------------

variable {now : Nat} {c c' : Client} {outcome : Except SyncError Outcome}

theorem getLast?_of_cons {α : Type} {P : α → Prop} {x : α} {xs : List α}
    (h : ∀ y ∈ (x :: xs).getLast?, P y) : ∀ y ∈ xs.getLast?, P y := by
  cases xs with
  | nil => simp
  | cons x' xs => simpa [List.getLast?_cons] using h

theorem changes_eq_cons {ds : List Document} (h : .changed d :: ms = changes ds) :
    ∃ rest, ds = d :: rest ∧ ms = changes rest := by
  cases ds with
  | nil => cases h
  | cons d' rest =>
    obtain ⟨hd, hms⟩ := List.cons.inj h
    cases hd
    exact ⟨rest, rfl, hms⟩

theorem changes_append_eq_cons {before : List Document} {id : String} {after : List HostMessage}
    (h : .changed d :: ms = changes before ++ .persisted id :: after) :
    ∃ rest, before = d :: rest ∧ ms = changes rest ++ .persisted id :: after := by
  cases before with
  | nil => cases h
  | cons d' rest =>
    obtain ⟨hd, hms⟩ := List.cons.inj h
    cases hd
    exact ⟨rest, rfl, hms⟩

/-- The only document left on its way is that of the host, so installing it is following. -/
theorem follows_install_last {ds : List Document} (last : ∀ d' ∈ (d :: ds).getLast?, d' = host)
    (hnil : ds = []) : (store.install d).1.Follows host := by
  obtain rfl : d = host := last d (by simp [hnil])
  exact Store.follows_install store d

theorem Tracks.suppressed {id : String} (h : Tracks store host g (.changed d :: ms))
    (hg : g.Suppresses d.digest id g') : Tracks store host g' ms := by
  generalize hms : HostMessage.changed d :: ms = all at h
  cases hg with
  | first fresh =>
    cases h with
    | waiting last expects =>
      -- Whose change it is does not matter: the queue is tracked by its end.
      obtain ⟨before, rfl, rfl⟩ := changes_append_eq_cons hms
      refine .waiting (getLast?_of_cons last) ⟨fun hsup => ?_, expects.latest, nofun⟩
      simp [(expects.overtaken hsup).1] at fresh
  | late =>
    cases h with
    | late _ last settled =>
      cases hms
      exact .idle (getLast?_of_cons last) settled

theorem Tracks.passed (h : Tracks store host g (.changed d :: ms))
    (hg : g.Passes none d.digest g') : Tracks (store.install d).1 host g' ms := by
  generalize hms : HostMessage.changed d :: ms = all at h
  cases hg with
  | idle =>
    cases h with
    | idle last =>
      obtain ⟨rest, rfl, rfl⟩ := changes_eq_cons hms
      exact .idle (getLast?_of_cons last) (follows_install_last last)
  | second seen =>
    cases h with
    | waiting last expects =>
      -- The save is overtaken. If nothing else is on its way, the document installed is the last.
      obtain ⟨before, rfl, rfl⟩ := changes_append_eq_cons hms
      refine .waiting (getLast?_of_cons last) ⟨fun _ => ⟨seen, ?_⟩, nofun, by simp [seen]⟩
      rintro rfl rfl
      exact follows_install_last last rfl
  | other digest_ne =>
    cases h with
    | late digest =>
      cases hms
      exact absurd digest digest_ne
  | stale timed => exact absurd rfl timed

theorem Tracks.changed (h : Tracks c.store host c.guard (.changed d :: ms))
    (ht : c.config.echoTimeout = none) (hh : c.Handled now (.changed d) outcome c') :
    Tracks c'.store host c'.guard ms := by
  cases hh with
  | suppressed suppresses store => exact store ▸ h.suppressed suppresses
  | replaced passes store => exact store ▸ h.passed (ht ▸ passes)

theorem Tracks.result {id : String} {ok : Bool} {e : Option HostError}
    (h : Tracks c.store host c.guard (.persistResult id ok e :: ms)) (hc : c.Grounded)
    (hsave : ∀ save, c.guard = .awaitingEcho save → save.document.Normalized ∧
      save.digest = save.document.digest)
    (hh : c.Handled now (.persistResult id ok e) outcome c') :
    Tracks c'.store host c'.guard ms := by
  generalize hg : c.guard = g, hms : HostMessage.persistResult id ok e :: ms = all at h
  cases h with
  | @idle ds => cases ds <;> cases hms
  | late => cases hms
  | @waiting save before after last expects =>
    cases before with
    | cons => cases hms
    | nil =>
      cases hms
      obtain ⟨normalized, digest⟩ := hsave save hg
      cases hsup : save.superseded with
      | true =>
        obtain ⟨hidle, hstore⟩ := hh.overtaken_result hg hsup
        rw [hidle, hstore]
        exact .idle last ((expects.overtaken hsup).2 rfl)
      | false =>
        obtain ⟨hguard, hstore, -⟩ := hh.confirmed_result hc hg hsup
        have follows : host = save.document → c'.store.Follows host :=
          fun hhost => hhost ▸ Store.follows_markSaved normalized hstore
        rw [hguard, Client.guardAfter]
        cases hseen : save.echoSeen with
        | true => exact .idle last fun hnil => follows (expects.latest hsup hnil)
        | false =>
          -- The echo is next. If it is the last change on its way, the host has its document.
          obtain ⟨rest, rfl⟩ := expects.echo hseen rfl
          refine .late digest.symm last fun hnil => follows ?_
          exact (last save.document (by simp [hnil])).symm

-- ---------------------------------------------------------------------------
-- Runs without losses
-- ---------------------------------------------------------------------------

/-- What is in step all along while no save fails and no message is lost. The documents are
well-formed because a host that reads back what it is given accepts no other. -/
structure InStep (s : Session MemoryHost) : Prop where
  timeout : s.client.config.echoTimeout = none
  lossless : s.host.Lossless
  document : s.host.document.WellFormed
  changed : ∀ d, .changed d ∈ s.host.signals → d.WellFormed
  sound : s.client.store.Sound
  saving : ∀ save, s.client.guard = .awaitingEcho save →
    save.document.WellFormed ∧ save.document.Normalized ∧ save.digest = save.document.digest
  tracks : Tracks s.client.store s.host.document s.client.guard s.host.signals

variable {s s' : Session MemoryHost}

theorem InStep.edited {t : Store} (h : InStep s) (he : s.client.store.Edited t) :
    InStep { s with client := { s.client with store := t } } :=
  { h with
    sound := h.sound.edited he
    tracks := h.tracks.withStore fun hf => hf.edited he }

theorem InStep.executed {command : HostCommand} (h : InStep s) (ho : s.host.Ordered)
    (hc : command.IsLossless) : InStep { s with host := s.host.execute command } := by
  have hl := h.lossless.execute hc
  rcases MemoryHost.execute_cases command ho with
    ⟨d, rfl, hdocument, hsignals⟩ | ⟨hdocument, hsignals⟩
  · obtain ⟨v, hv⟩ := hc
    have hd : d.WellFormed := Document.wellFormed_of_read hv
    refine ⟨h.timeout, hl, ?_, fun d' hd' => ?_, h.sound, h.saving, ?_⟩
    · rw [hdocument]
      exact hd
    · rw [hsignals] at hd'
      rcases List.mem_append.mp hd' with hd' | hd'
      · exact h.changed d' hd'
      · cases List.mem_singleton.mp hd'
        exact hd
    · rw [hdocument, hsignals]
      exact h.tracks.external d
  · refine ⟨h.timeout, hl, hdocument ▸ h.document, hsignals ▸ h.changed, h.sound, h.saving, ?_⟩
    rw [hdocument, hsignals]
    exact h.tracks

theorem InStep.fetched {c : Client} {requests : List HostRequest} (h : InStep s)
    (hguard : c.guard = s.client.guard) (hkept : s.client.Kept c)
    (hstore : c.store = s.client.store ∨ ∃ d, Document.ofJson? s.host.document.toValue = .ok d ∧
      c.store = (s.client.store.install d).1) : InStep ⟨c, { s.host with requests }⟩ := by
  refine ⟨hkept.config ▸ h.timeout, ⟨h.lossless.1, h.lossless.2, h.lossless.3⟩, h.document,
    h.changed, ?_, hguard ▸ h.saving, hguard ▸ ?_⟩
  · rcases hstore with hstore | ⟨d, hd, hstore⟩
    · exact hstore ▸ h.sound
    · exact hstore ▸ Store.sound_install (Document.wellFormed_of_read hd)
  · refine h.tracks.withStore fun hf => ?_
    rcases hstore with hstore | ⟨d, hd, hstore⟩
    · exact hstore ▸ hf
    · cases (Document.ofJson?_toValue h.document).symm.trans hd
      exact hstore ▸ Store.follows_install _ _

structure Accepted (s : Session MemoryHost) (save : InFlightSave) (s' : Session MemoryHost) :
    Prop where
  free : s.client.guard.inFlight? = none
  guard : s'.client.guard = .awaitingEcho save
  fresh : save.echoSeen = false ∧ save.superseded = false
  current : ∃ l, s.client.store.loaded = some l ∧ l.current = save.document
  digest : save.digest = save.document.digest
  store : s'.client.store = s.client.store
  kept : s.client.Kept s'.client
  submitted : s.host.Submitted (.persist save.requestId save.document save.digest) s'.host
  document : s'.host.document = save.document
  signals : s'.host.signals = s.host.signals ++ s.host.answers save.requestId save.document

/-- Nothing makes the host refuse a save: it finds the digest of the document that it reads back. -/
theorem InStep.accepted {id : String} (h : InStep s) (hb : s.Begun (.ok id) s') :
    ∃ save, save.requestId = id ∧ Accepted s save s' := by
  cases hb with
  | @armed l save _ _ h' own loaded free guard store document digest fresh submitted kept =>
    have hw := (h.sound l loaded).1.1
    rw [← document] at hw digest submitted
    subst own
    have hsaved := submitted.saved
    rw [digest] at hsaved
    have hfree := free.resolve_right fun timed => timed h.timeout
    cases hsaved with
    | refused e _ _ why =>
      rcases why with why | ⟨e, why⟩
      · exact absurd h.lossless.failures why
      · cases (HostRequest.savable_persist hw).symm.trans why
    | accepted d savable hdocument signals =>
      cases (HostRequest.savable_persist hw).symm.trans savable
      exact ⟨save, rfl, hfree, guard, fresh, ⟨l, loaded, document.symm⟩, digest, store, kept,
        submitted, hdocument, signals⟩

theorem InStep.refused {e : SyncError} (h : InStep s) (hb : s.Begun (.error e) s') :
    InStep s' := by
  cases hb with
  | refused store guard kept =>
    rcases guard with guard | ⟨-, timed⟩
    · refine ⟨kept.config ▸ h.timeout, h.lossless, h.document, h.changed, store ▸ h.sound,
        guard ▸ h.saving, ?_⟩
      rw [guard, store]
      exact h.tracks
    · exact absurd h.timeout timed

theorem InStep.begun {save : InFlightSave} (h : InStep s) (ha : Accepted s save s') :
    InStep s' := by
  obtain ⟨l, hl, hcurrent⟩ := ha.current
  obtain ⟨⟨hw, hn⟩, -⟩ := h.sound l hl
  rw [hcurrent] at hw hn
  obtain ⟨ds, hds⟩ := h.tracks.changes_of_free ha.free
  refine ⟨ha.kept.config ▸ h.timeout, h.lossless.submitted ha.submitted, ha.document ▸ hw,
    fun d hd => ?_, ha.store ▸ h.sound, fun save' hg => ?_, ?_⟩
  · rw [ha.signals] at hd
    rcases List.mem_append.mp hd with hd | hd
    · exact h.changed d hd
    · exact MemoryHost.eq_of_changed_mem_answers hd ▸ hw
  · cases ha.guard.symm.trans hg
    exact ⟨hw, hn, ha.digest⟩
  · rw [ha.guard, ha.store, ha.document, ha.signals, hds]
    exact tracks_submitted h.lossless rfl ha.fresh.2

theorem InStep.taken {m : HostMessage} {rest : List HostMessage} (h : InStep s)
    (hg : s.client.Grounded) (hin : s.host.inbox = m :: rest)
    (hh : s.client.Handled now m outcome c) : InStep ⟨c, { s.host with inbox := rest }⟩ := by
  have hsignals := MemoryHost.signals_cons hin
  have hchanged : ∀ d, m = .changed d → d.WellFormed := by
    rintro d rfl
    exact h.changed d (hsignals ▸ List.mem_cons_self)
  have htracks := h.tracks
  rw [hsignals] at htracks
  refine ⟨hh.config_eq ▸ h.timeout, ⟨h.lossless.1, h.lossless.2, h.lossless.3⟩, h.document,
    fun d hd => h.changed d (hsignals ▸ List.mem_append_right _ hd), ?_, fun save' hg' => ?_, ?_⟩
  · cases hh with
    | suppressed _ store | failed _ _ _ store | overtaken _ _ _ _ store
    | unloaded _ _ _ _ _ store => exact store ▸ h.sound
    | stale => exact h.sound
    | replaced _ store => exact store ▸ Store.sound_install (hchanged _ rfl)
    | confirmed guard _ _ _ store =>
      obtain ⟨hw, hn, -⟩ := h.saving _ guard
      exact h.sound.markSaved hw hn store
    | @catalog feed _ _ _ store => exact store ▸ h.sound.edited (.published feed rfl)
  · obtain ⟨save, hsave, continues⟩ := hh.inFlight hg'
    rw [continues.document, continues.digest]
    exact h.saving save hsave
  · cases m with
    | changed d => exact htracks.changed h.timeout hh
    | persistResult id ok e =>
      exact htracks.result hg (fun save hsave => (h.saving save hsave).2) hh
    | catalogUpdated feed =>
      cases hh with
      | catalog guard store =>
        rw [guard, store]
        exact htracks.withStore fun hf => hf.edited (.published feed rfl)

variable {policy : RestartPolicy} {ids : IdSource} {persistTimeout : Nat} {document : Document}
  {log : List (Event MemoryHost)}

theorem inStep_opened {resultFirst : Bool} (hd : document.WellFormed) :
    InStep (opened policy ids ⟨none, persistTimeout⟩ { document, resultFirst }) :=
  ⟨rfl, ⟨rfl, rfl, rfl⟩, hd, fun _ h => absurd h List.not_mem_nil, fun _ h => (nomatch h),
    fun _ h => (nomatch h), tracks_nil fun _ h => (nomatch h)⟩

theorem Run.inStep (hd : document.WellFormed)
    (run : Run (HostCommand.Moves HostCommand.IsLossless)
      (opened policy ids ⟨none, persistTimeout⟩ { document }) log s) : InStep s := by
  refine (run.memory_induction (motive := fun _ s => InStep s) (fun _ => rfl)
    (Client.grounded_of_idle rfl) ?initial ?edit ?host ?load ?refuse ?arm ?take).1
  case initial => exact inStep_opened hd
  case edit => exact fun ih he => ih.edited he
  case host => exact fun ih ho hc => ih.executed ho hc
  case load => exact fun ih hguard hkept hstore => ih.fetched hguard hkept hstore
  case refuse => exact fun ih hbegun => ih.refused hbegun
  case arm =>
    intro log s id s' ih hbegun
    obtain ⟨save, -, accepted⟩ := ih.accepted hbegun
    exact ih.begun accepted
  case take => exact fun ih hg hin hh => ih.taken hg hin hh

/-- Once nothing is left to deliver, the guard is idle, and what need not be saved is what the host
has. -/
theorem Run.converged {l : Loaded} {v : Json}
    (run : Run (HostCommand.Moves HostCommand.IsLossless)
      (opened policy ids ⟨none, persistTimeout⟩ { document }) log s)
    (readable : Document.ofJson? v = .ok document) (hl : s.client.store.loaded = some l)
    (delivered : s.host.inbox = [] ∧ s.host.held = []) :
    s.client.guard = .idle ∧ (s.client.store.needsSave = false →
      l.current.same s.host.document.normalize = true) := by
  have h := run.inStep (Document.wellFormed_of_read readable)
  have hnil : s.host.signals = [] := by
    simp [MemoryHost.signals, MemoryHost.undelivered, delivered]
  have htracks := h.tracks
  rw [hnil] at htracks
  generalize s.client.guard = g, hms : ([] : List HostMessage) = ms at htracks
  cases htracks with
  | late | waiting => simp [changes] at hms
  | @idle ds last settled =>
    refine ⟨rfl, fun hneeds => ?_⟩
    have hds : ds = [] := by simpa [changes] using hms.symm
    simp only [Store.needsSave, Store.isDirty, hl, Bool.or_eq_false_iff] at hneeds
    obtain ⟨hdirty, hrepaired⟩ := hneeds
    rcases settled hds l hl with repaired | snapshot
    · simp [repaired] at hrepaired
    · rw [← snapshot]
      simpa [Loaded.isDirty] using hdirty

/-- A collection is created, its save is begun and confirmed, and it is gone with the change that
another writer makes before the session has taken the answers. -/
theorem converged_collection_replaced :
    ∃ log s l before id d, Run (HostCommand.Moves HostCommand.IsLossless)
        (opened .builtIn ⟨fun _ => "new", 0⟩ ⟨none, 10000⟩ {}) log s ∧
      (before.client.store.get = .ok d ∧ d.hasCollection "new" = true) ∧
      .begun before id ∈ log ∧ .saveConfirmed id ∈ log.filterMap Event.outcome? ∧
      Document.ofJson? ({} : Document).toValue = .ok {} ∧ s.client.store.loaded = some l ∧
      (s.host.inbox = [] ∧ s.host.held = []) ∧ s.client.guard = .idle ∧
      s.client.store.needsSave = false ∧ l.current.same s.host.document.normalize = true ∧
      l.current.hasCollection "new" = false := by
  have readable := Document.ofJson?_toValue Document.wellFormed_default
  let start := opened .builtIn ⟨fun _ => "new", 0⟩ ⟨none, 10000⟩ {}
  have loaded : Run (HostCommand.Moves HostCommand.IsLossless) start [] (start.load none 0).2 :=
    .load none 0 .start
  rw [load_eq none 0 Document.wellFormed_default rfl] at loaded
  let mountains : Document := { collections := [{ id := "new", name := "Mountains" }] }
  let edited : Session MemoryHost := ⟨{
      store := { loaded := some ⟨mountains, {}, 1, false⟩, ids := ⟨fun _ => "new", 1⟩ }
      config := ⟨none, 10000⟩
      counter := 1
      status := { lastLoadedAt := some 0 } }, { requests := [.load (requestId 1) none] }⟩
  have created : Run _ start _ edited := loaded.edit (c := .createCollection "Mountains" []) trivial
  have wellFormed := ((created.inStep Document.wellFormed_default).sound _ rfl).1.1
  obtain ⟨save, requests, ⟨document, fresh, superseded⟩, begun⟩ :=
    created.beginAccepted 0 rfl rfl rfl wellFormed rfl rfl
  have replaced := begun.host ⟨.external {}, ⟨_, readable⟩, rfl⟩
  have echoed := replaced.takeEcho 0 rfl rfl rfl fresh
  have confirmed := echoed.takePersisted 0 rfl rfl rfl superseded rfl
  have settled := confirmed.takeExternal 0 rfl rfl
  obtain ⟨idle, same⟩ := settled.converged readable rfl ⟨rfl, rfl⟩
  refine ⟨_, _, _, edited, save.requestId, mountains, settled, ⟨rfl, rfl⟩, ?begun, ?confirmed,
    readable, rfl, ⟨rfl, rfl⟩, idle, rfl, same rfl, rfl⟩
  case begun => simp
  case confirmed => simp [Event.outcome?]

end Session

end ShellSettings
