import ShellSettings.Host.Memory
import ShellSettings.Proofs.Host.RequestLaws

/-!
# What a host in memory has still to deliver

Messages held back come after those in the inbox, so both together are one queue
(`MemoryHost.undelivered`), which pausing and resuming do not change. Catalogs
never reach the echo guard; what is left of the queue without them are its
`signals`. A save answers with an echo and a result, or with a failure alone.
-/

namespace ShellSettings

/-- What can be done to a host in memory without its client. -/
inductive HostCommand where
  -- Another writer replaces the document.
  | external (d : Document)
  | catalog (feed : Feed)
  | pause
  | resume
  | resultFirst (on : Bool)
  | dropEchoes (on : Bool)
  | dropResults (on : Bool)
  | failPersist (e : HostError)
  | failLoad (e : HostError)

def MemoryHost.execute (h : MemoryHost) : HostCommand → MemoryHost
  | .external d => h.pushExternal d
  | .catalog feed => h.pushCatalog feed
  | .pause => h.pause
  | .resume => h.resume
  | .resultFirst on => { h with resultFirst := on }
  | .dropEchoes on => { h with dropEchoes := on }
  | .dropResults on => { h with dropResults := on }
  | .failPersist e => { h with persistFailures := h.persistFailures ++ [e] }
  | .failLoad e => { h with loadFailure := some e }

/-- One of the commands allowed takes the one host to the other. -/
def HostCommand.Moves (allowed : HostCommand → Prop) (h h' : MemoryHost) : Prop :=
  ∃ c, allowed c ∧ h' = h.execute c

/-- Whether the echo guard looks at a message. -/
def HostMessage.isSignal : HostMessage → Bool
  | .catalogUpdated _ => false
  | _ => true

def HostCommand.signals : HostCommand → List HostMessage
  | .external d => [.changed d]
  | _ => []

/-- Whether a command leaves it to the client alone to change the document, and leaves the order
of echo and result as it is. -/
def HostCommand.IsSolo : HostCommand → Prop
  | .external _ | .resultFirst _ => False
  | _ => True

/-- Whether a command lets no save fail and no message get lost. What another writer brings in has
been read from a value. -/
def HostCommand.IsLossless : HostCommand → Prop
  | .external d => ∃ v, Document.ofJson? v = .ok d
  | .dropEchoes _ | .dropResults _ | .failPersist _ => False
  | _ => True

namespace MemoryHost

def undelivered (h : MemoryHost) : List HostMessage := h.inbox ++ h.held

def signals (h : MemoryHost) : List HostMessage := h.undelivered.filter HostMessage.isSignal

/-- Nothing is held back unless the host is paused. -/
def Ordered (h : MemoryHost) : Prop := h.paused = false → h.held = []

variable {h h' : MemoryHost}

-- ---------------------------------------------------------------------------
-- Pushing and pausing
-- ---------------------------------------------------------------------------

theorem Ordered.push (m : HostMessage) (ho : h.Ordered) : (h.push m).Ordered := by
  unfold MemoryHost.push
  split
  · intro hp
    simp_all
  · exact ho

theorem undelivered_push (m : HostMessage) (ho : h.Ordered) :
    (h.push m).undelivered = h.undelivered ++ [m] := by
  unfold MemoryHost.push undelivered
  split
  · simp
  · have hheld := ho (by simp_all)
    simp [hheld]

theorem signals_push (m : HostMessage) (ho : h.Ordered) :
    (h.push m).signals = h.signals ++ [m].filter HostMessage.isSignal := by
  simp [signals, undelivered_push m ho]

theorem Ordered.pushAll (ms : List HostMessage) (ho : h.Ordered) :
    (ms.foldl MemoryHost.push h).Ordered := by
  induction ms generalizing h with
  | nil => exact ho
  | cons m ms ih => exact ih (ho.push m)

theorem signals_pushAll (ms : List HostMessage) (ho : h.Ordered) :
    (ms.foldl MemoryHost.push h).signals = h.signals ++ ms.filter HostMessage.isSignal := by
  induction ms generalizing h with
  | nil => simp
  | cons m ms ih =>
    rw [List.foldl_cons, ih (ho.push m), signals_push m ho, List.append_assoc,
      ← List.filter_append, List.singleton_append]

theorem Ordered.resume : h.resume.Ordered := fun _ => rfl

theorem Ordered.pause : h.pause.Ordered := nofun

@[simp] theorem signals_resume : h.resume.signals = h.signals := by
  simp [signals, undelivered, MemoryHost.resume]

/-- What two hosts have in common if only requests and messages came in between. -/
structure SameManner (h h' : MemoryHost) : Prop where
  dropEchoes : h'.dropEchoes = h.dropEchoes
  dropResults : h'.dropResults = h.dropResults
  resultFirst : h'.resultFirst = h.resultFirst

theorem SameManner.push (m : HostMessage) : h.SameManner (h.push m) := by
  unfold MemoryHost.push
  split <;> exact ⟨rfl, rfl, rfl⟩

theorem pushAll_frame (ms : List HostMessage) :
    h.SameManner (ms.foldl MemoryHost.push h) ∧
      (ms.foldl MemoryHost.push h).document = h.document ∧
      (ms.foldl MemoryHost.push h).persistFailures = h.persistFailures := by
  induction ms generalizing h with
  | nil => exact ⟨⟨rfl, rfl, rfl⟩, rfl, rfl⟩
  | cons m ms ih =>
    have hm : (h.push m).document = h.document ∧
        (h.push m).persistFailures = h.persistFailures := by
      unfold MemoryHost.push
      split <;> exact ⟨rfl, rfl⟩
    obtain ⟨⟨h1, h2, h3⟩, hdoc, hfail⟩ := ih (h := h.push m)
    obtain ⟨h1', h2', h3'⟩ := SameManner.push (h := h) m
    exact ⟨⟨h1.trans h1', h2.trans h2', h3.trans h3'⟩, hdoc.trans hm.1, hfail.trans hm.2⟩

theorem Ordered.execute (c : HostCommand) (ho : h.Ordered) : (h.execute c).Ordered := by
  cases c with
  | external d => exact Ordered.push (h := { h with document := d }) _ ho
  | catalog feed => exact ho.push _
  | pause => exact .pause
  | resume => exact .resume
  | resultFirst | dropEchoes | dropResults | failPersist | failLoad => exact ho

theorem signals_execute (c : HostCommand) (ho : h.Ordered) :
    (h.execute c).signals = h.signals ++ c.signals := by
  cases c with
  | external d => exact signals_push (h := { h with document := d }) (.changed d) ho
  | catalog feed => exact signals_push (.catalogUpdated feed) ho
  | pause => exact (List.append_nil _).symm
  | resume => exact signals_resume.trans (List.append_nil _).symm
  | resultFirst | dropEchoes | dropResults | failPersist | failLoad =>
    exact (List.append_nil _).symm

/-- Whether every save is accepted, and answered with an echo and a result. -/
structure Lossless (h : MemoryHost) : Prop where
  echoes : h.dropEchoes = false
  results : h.dropResults = false
  failures : h.persistFailures = []

theorem Lossless.execute {c : HostCommand} (hl : h.Lossless) (hc : c.IsLossless) :
    (h.execute c).Lossless := by
  cases c with
  | external d =>
    obtain ⟨manner, -, failures⟩ := pushAll_frame (h := { h with document := d }) [.changed d]
    exact ⟨manner.dropEchoes.trans hl.1, manner.dropResults.trans hl.2, failures.trans hl.3⟩
  | catalog feed =>
    obtain ⟨manner, -, failures⟩ := pushAll_frame (h := h) [.catalogUpdated feed]
    exact ⟨manner.dropEchoes.trans hl.1, manner.dropResults.trans hl.2, failures.trans hl.3⟩
  | dropEchoes | dropResults | failPersist => cases hc
  | pause | resume | resultFirst | failLoad => exact ⟨hl.1, hl.2, hl.3⟩

theorem execute_cases (c : HostCommand) (ho : h.Ordered) :
    (∃ d, c = .external d ∧ (h.execute c).document = d ∧
        (h.execute c).signals = h.signals ++ [.changed d]) ∨
      (h.execute c).document = h.document ∧ (h.execute c).signals = h.signals := by
  have hsignals := signals_execute c ho
  cases c with
  | external d =>
    exact .inl ⟨d, rfl, (pushAll_frame (h := { h with document := d }) [.changed d]).2.1, hsignals⟩
  | catalog feed =>
    exact .inr ⟨(pushAll_frame (h := h) [.catalogUpdated feed]).2.1,
      hsignals.trans (List.append_nil _)⟩
  | _ => exact .inr ⟨rfl, hsignals.trans (List.append_nil _)⟩

theorem solo_execute {c : HostCommand} (hc : c.IsSolo) (ho : h.Ordered) :
    (h.execute c).signals = h.signals ∧ (h.execute c).resultFirst = h.resultFirst := by
  refine ⟨?_, ?_⟩
  · rcases execute_cases c ho with ⟨d, rfl, -⟩ | ⟨-, hsignals⟩
    · cases hc
    · exact hsignals
  · cases c with
    | external | resultFirst => cases hc
    | catalog feed => exact (pushAll_frame (h := h) [.catalogUpdated feed]).1.resultFirst
    | _ => rfl

theorem changed_mem_signals {d : Document} :
    .changed d ∈ h.signals ↔ .changed d ∈ h.undelivered := by
  simp [signals, HostMessage.isSignal]

-- ---------------------------------------------------------------------------
-- Receiving
-- ---------------------------------------------------------------------------

theorem receive_eq_message {m : HostMessage} (hr : Transport.receive h = (.ok (some m), h')) :
    ∃ rest, h.inbox = m :: rest ∧ h' = { h with inbox := rest } := by
  change MemoryHost.receive h = _ at hr
  unfold MemoryHost.receive at hr
  split at hr
  · simp at hr
  · rename_i first rest hin
    simp only [Prod.mk.injEq, Except.ok.injEq, Option.some.injEq] at hr
    obtain ⟨rfl, rfl⟩ := hr
    exact ⟨rest, hin, rfl⟩

theorem receive_eq_nothing {r : Except TransportError (Option HostMessage)}
    (hr : Transport.receive h = (r, h')) (hn : ∀ m, r ≠ .ok (some m)) : h' = h := by
  change MemoryHost.receive h = _ at hr
  unfold MemoryHost.receive at hr
  split at hr
  · simp_all
  · simp only [Prod.mk.injEq] at hr
    exact absurd hr.1.symm (hn _)

theorem signals_cons {m : HostMessage} {rest : List HostMessage} (h' : h.inbox = m :: rest) :
    h.signals = [m].filter HostMessage.isSignal ++ { h with inbox := rest }.signals := by
  simp [signals, undelivered, h', ← List.filter_append]

theorem Ordered.receive {m : HostMessage} (ho : h.Ordered)
    (hr : Transport.receive h = (.ok (some m), h')) : h'.Ordered := by
  obtain ⟨rest, -, rfl⟩ := receive_eq_message hr
  exact ho

-- ---------------------------------------------------------------------------
-- Requests
-- ---------------------------------------------------------------------------

def answers (h : MemoryHost) (id : String) (d : Document) : List HostMessage :=
  let echo := if h.dropEchoes then [] else [HostMessage.changed d]
  let result := if h.dropResults then [] else [HostMessage.persisted id]
  if h.resultFirst then result ++ echo else echo ++ result

theorem filter_answers {id : String} {d : Document} :
    (h.answers id d).filter HostMessage.isSignal = h.answers id d := by
  unfold answers
  cases h.dropEchoes <;> cases h.dropResults <;> cases h.resultFirst <;> rfl

theorem Lossless.answers_eq (hl : h.Lossless) (id : String) (d : Document) :
    h.answers id d =
      if h.resultFirst then [.persisted id, .changed d] else [.changed d, .persisted id] := by
  cases horder : h.resultFirst <;> simp [answers, hl.echoes, hl.results, horder]

theorem eq_of_changed_mem_answers {id : String} {d d' : Document}
    (hm : .changed d' ∈ h.answers id d) : d' = d := by
  have hresult : .changed d' ∉ (if h.dropResults then [] else [HostMessage.persisted id]) := by
    split <;> simp [HostMessage.persisted]
  have hecho : .changed d' ∈ (if h.dropEchoes then [] else [HostMessage.changed d]) → d' = d := by
    split <;> simp
  unfold answers at hm
  dsimp only at hm
  split at hm
  · exact hecho ((List.mem_append.mp hm).resolve_left hresult)
  · exact hecho ((List.mem_append.mp hm).resolve_right hresult)

/-- How a save went: it was refused and left the document alone, or it was accepted. -/
inductive Saved (h : MemoryHost) (r : HostRequest) (h' : MemoryHost) : Prop
  | refused (e : HostError) (document : h'.document = h.document)
    (signals : h'.signals = h.signals ++ [.persistFailed r.id e])
    (why : h.persistFailures ≠ [] ∨ ∃ e, r.savable = .error e)
  | accepted (d : Document) (savable : r.savable = .ok d) (document : h'.document = d)
    (signals : h'.signals = h.signals ++ h.answers r.id d)

structure Submitted (h : MemoryHost) (r : HostRequest) (h' : MemoryHost) : Prop where
  saved : h.Saved r h'
  manner : h.SameManner h'
  ordered : h'.Ordered
  failures : h.persistFailures = [] → h'.persistFailures = []

theorem Lossless.submitted {r : HostRequest} (hl : h.Lossless) (hs : h.Submitted r h') :
    h'.Lossless :=
  ⟨hs.manner.dropEchoes.trans hl.1, hs.manner.dropResults.trans hl.2, hs.failures hl.3⟩

theorem submitted_refused {r : HostRequest} {rest : List HostError} (e : HostError)
    (ho : h.Ordered) (hrest : h.persistFailures = [] → rest = [])
    (why : h.persistFailures ≠ [] ∨ ∃ e, r.savable = .error e) :
    h.Submitted r ({ h with persistFailures := rest }.push (.persistFailed r.id e)) := by
  have ho' : { h with persistFailures := rest }.Ordered := ho
  obtain ⟨⟨h1, h2, h3⟩, hdoc, hfail⟩ :=
    pushAll_frame (h := { h with persistFailures := rest }) [.persistFailed r.id e]
  exact ⟨.refused e hdoc (signals_push _ ho') why, ⟨h1, h2, h3⟩, ho'.push _,
    fun hnone => hfail.trans (hrest hnone)⟩

theorem submitted_persist (r : HostRequest) (ho : h.Ordered) : h.Submitted r (h.persist r) := by
  unfold MemoryHost.persist
  split
  · rename_i e hsavable
    exact submitted_refused e ho id (.inr ⟨e, hsavable⟩)
  · rename_i d e rest hsavable hfailures
    exact submitted_refused e ho (by simp [hfailures]) (.inl (by simp [hfailures]))
  · rename_i d hsavable hfailures
    have ho' : { h with document := d, persisted := h.persisted ++ [d] }.Ordered := ho
    obtain ⟨⟨h1, h2, h3⟩, hdoc, hfail⟩ := pushAll_frame
      (h := { h with document := d, persisted := h.persisted ++ [d] }) (h.answers r.id d)
    have hsignals := signals_pushAll (h.answers r.id d) ho'
    rw [filter_answers] at hsignals
    exact ⟨.accepted d hsavable hdoc hsignals, ⟨h1, h2, h3⟩, ho'.pushAll _,
      fun _ => hfail.trans hfailures⟩

theorem submit_persist (id digest : String) (d : Document) (ho : h.Ordered) :
    ∃ h', Transport.submit h (.persist id d digest) = (.ok (), h') ∧
      h.Submitted (.persist id d digest) h' := by
  let asked := { h with requests := h.requests ++ [HostRequest.persist id d digest] }
  obtain ⟨saved, ⟨h1, h2, h3⟩, ordered, failures⟩ :=
    submitted_persist (h := asked) (.persist id d digest) ho
  refine ⟨_, rfl, ?_, ⟨h1, h2, h3⟩, ordered, failures⟩
  cases saved with
  | refused e document signals why => exact .refused e document signals why
  | accepted d' savable document signals => exact .accepted d' savable document signals

theorem pushAll_unpaused (ms : List HostMessage) (hp : h.paused = false) :
    ms.foldl MemoryHost.push h = { h with inbox := h.inbox ++ ms } := by
  induction ms generalizing h with
  | nil => simp
  | cons m ms ih => simp [MemoryHost.push, hp, ih]

theorem persist_eq {r : HostRequest} {d : Document} (hr : r.savable = .ok d)
    (hp : h.paused = false) (hf : h.persistFailures = []) :
    h.persist r = { h with
      document := d, persisted := h.persisted ++ [d], inbox := h.inbox ++ h.answers r.id d } := by
  unfold MemoryHost.persist
  split
  · rename_i hsavable
    cases hr.symm.trans hsavable
  · rename_i hfailures
    cases hf.symm.trans hfailures
  · rename_i hsavable _
    cases hr.symm.trans hsavable
    exact pushAll_unpaused (h := { h with document := d, persisted := h.persisted ++ [d] })
      (h.answers r.id d) hp

theorem submit_persist_eq {id : String} {d : Document} (hd : d.WellFormed)
    (hp : h.paused = false) (hf : h.persistFailures = []) :
    Transport.submit h (.persist id d d.digest) =
      (.ok (), { h with
        document := d, persisted := h.persisted ++ [d]
        requests := h.requests ++ [HostRequest.persist id d d.digest]
        inbox := h.inbox ++ h.answers id d }) :=
  congrArg (Prod.mk _) (persist_eq
    (h := { h with requests := h.requests ++ [HostRequest.persist id d d.digest] })
    (HostRequest.savable_persist hd) hp hf)

theorem request_load (h : MemoryHost) (id : String) (path : Option String) :
    Transport.request h (.load id path) =
      (.ok (match h.loadFailure with
        | some e => .failure Protocol.high id e
        | none => .success Protocol.high id (.obj [("document", h.document.toValue)])),
      { h with requests := h.requests ++ [HostRequest.load id path] }) := by
  cases hfail : h.loadFailure <;>
    simp [Transport.request, request, HostRequest.load, versionError?, Protocol.low,
      Protocol.high, hfail]

end MemoryHost

end ShellSettings
