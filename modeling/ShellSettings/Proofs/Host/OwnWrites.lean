import ShellSettings.Proofs.Document.DigestLaws
import ShellSettings.Proofs.Host.DiskLaws
import ShellSettings.Proofs.Host.MemoryLaws

/-!
# A host on disk and its own writes

As long as nobody else writes, a host on disk delivers what its saves are owed
and nothing else (`Alone.received_exactly`). For that a load that fails must not
bring a document into view: it leaves the host at the new path, and directories
that it made on the way there can make a path through `..` lead to a file.
-/

namespace ShellSettings.DiskHost

open FileTree

/-- Every document at the path of the second host is at the path of the first. -/
def ShowsNoMore (h h' : DiskHost) : Prop :=
  ∀ d, readDocument h'.tree h'.path = .ok d → readDocument h.tree h.path = .ok d

/-- What can be reached by requests, saves and asking for messages, each with the messages owed and
those received on the way. A request that fails shows nothing new, and what is saved has numbers
that fit. -/
inductive Alone (start : DiskHost) : List HostMessage → List HostMessage → DiskHost → Prop
  | start : Alone start [] [] start
  | request {owing received h} (r : HostRequest) (alone : Alone start owing received h)
    (clean : ∀ response, (h.request r).1 = .ok response → response.ok = false →
      h.ShowsNoMore (h.request r).2) : Alone start owing received (h.request r).2
  | submit {owing received h} (r : HostRequest) (alone : Alone start owing received h)
    (exact : ∀ d, r.savable = .ok d → d.toJson.Exact) :
    Alone start (owing ++ h.owed r) received (h.submit r).2
  | receive {owing received h h' m} (alone : Alone start owing received h)
    (e : h.receive = (.ok (some m), h')) : Alone start owing (received ++ [m]) h'
  | poll {owing received h h'} (alone : Alone start owing received h)
    (e : h.receive = (.ok none, h')) : Alone start owing received h'

/-- Nothing is taken for an edit of others, and no failed save can change that: the path shows
something, or the directories on the way to it were tried. -/
structure Quiet (h : DiskHost) : Prop where
  quiet : h.externalEdit? = none
  settled : h.lastDigest = none ∨ (∃ entry, h.tree.find h.path = .ok entry) ∨
    Prepared h.path h.tree

variable {start h h' : DiskHost} {d : Document} {r : HostRequest}
  {owing received : List HostMessage} {tree : FileTree}

-- ---------------------------------------------------------------------------
-- Steps
-- ---------------------------------------------------------------------------

theorem quiet_of_read (hr : readDocument h.tree h.path = .ok d) :
    Quiet { h with lastDigest := some d.digest } := by
  obtain ⟨text, hfind, -⟩ := readDocument_eq_ok.mp hr
  refine ⟨?_, .inr (.inl ⟨_, hfind⟩)⟩
  simp [externalEdit?, hr]

theorem quiet_of_written (hd : d.WellFormed) (hexact : d.toJson.Exact)
    (hw : writeDocument h.path d h.tree = (.ok (), tree)) :
    Quiet { h with tree, lastDigest := some d.digest } := by
  refine ⟨?_, .inr (.inl ⟨_, readText_eq_ok.mp (readText_writeDocument hw)⟩)⟩
  by_contra hsome
  obtain ⟨e, he⟩ := Option.ne_none_iff_exists'.mp hsome
  obtain ⟨last, hlast, hr, hne⟩ := externalEdit?_eq_some.mp he
  cases hlast
  cases Document.eq_of_ofText?_pretty hd hexact ((readDocument_written hw).mp hr)
  exact hne rfl

theorem Quiet.of_showsNoMore (hq : Quiet h) (hlast : h'.lastDigest = h.lastDigest)
    (hshows : h.ShowsNoMore h') : h'.externalEdit? = none := by
  by_contra hsome
  obtain ⟨d, hd⟩ := Option.ne_none_iff_exists'.mp hsome
  obtain ⟨last, hl, hr, hne⟩ := externalEdit?_eq_some.mp hd
  have hedit := externalEdit?_eq_some.mpr ⟨last, hlast ▸ hl, hshows d hr, hne⟩
  cases hq.quiet.symm.trans hedit

theorem Quiet.inbox (hq : Quiet h) (inbox : List HostMessage) : Quiet { h with inbox } :=
  ⟨hq.quiet, hq.settled⟩

theorem exact_default : ({} : Document).toJson.Exact := by repeat' constructor

theorem Quiet.request (hq : Quiet h)
    (clean : ∀ response, (h.request r).1 = .ok response → response.ok = false →
      h.ShowsNoMore (h.request r).2) : Quiet (h.request r).2 := by
  by_cases op : r.op = Protocol.loadOp
  · have hlast : (h.switched r.path?).lastDigest = h.lastDigest := by cases r.path? <;> rfl
    rw [request_load op]
    -- The file is read, is there but cannot be read, is made anew, or cannot be made.
    rcases load_cases h r.path? with ⟨d, hr, hload⟩ | ⟨e, entry, hentry, hr, hload⟩ |
      ⟨tree, hw, hload⟩ | ⟨e, tree, hw, hload⟩
    · rw [hload]
      exact quiet_of_read hr
    · rw [hload]
      refine ⟨hq.of_showsNoMore hlast fun d hd => absurd hd (hr d), .inr (.inl ⟨entry, hentry⟩)⟩
    · rw [hload]
      exact quiet_of_written Document.wellFormed_default exact_default hw
    -- The attempt may have made directories, so only the premise says what is shown now.
    · have hresponse : (h.request r).1 =
          .ok (.failure Protocol.high r.id (.storageFailure (TransportError.io e).message)) := by
        rw [request_eq op, hload]
      have hshows := clean _ hresponse rfl
      rw [request_load op, hload] at hshows
      rw [hload]
      exact ⟨hq.of_showsNoMore hlast hshows, .inr (.inr (prepared_of_error hw))⟩
  · rw [request_other op]
    exact hq

theorem Quiet.submit (hq : Quiet h) (exact : ∀ d, r.savable = .ok d → d.toJson.Exact) :
    Quiet (h.submit r).2 := by
  by_cases op : r.op = Protocol.persistOp
  · rw [submit_persist op]
    refine Quiet.inbox ?_ _
    rcases persist_cases h r with ⟨d, tree, hsavable, hw, hpersist⟩ | ⟨e, -, hpersist⟩ |
      ⟨d, e, tree, hw, hpersist⟩
    · rw [hpersist]
      exact (quiet_of_written (r.wellFormed_of_savable hsavable) (exact d hsavable) hw).inbox _
    · rw [hpersist]
      exact hq
    -- A write that fails leaves its text beside the file at most. Directories it makes show
    -- nothing new, because the path was tried or shows something already.
    · rw [hpersist]
      refine ⟨?_, .inr (.inr (prepared_of_error hw))⟩
      rcases hq.settled with hlast | hsettled
      · simp [externalEdit?, hlast]
      · exact hq.of_showsNoMore rfl fun d hd => readDocument_of_error hw hsettled.symm hd
  · rw [submit_other op]
    exact hq

-- ---------------------------------------------------------------------------
-- Runs
-- ---------------------------------------------------------------------------

theorem Alone.quiet (fresh : start.lastDigest = none) (alone : Alone start owing received h) :
    Quiet h := by
  induction alone with
  | start => exact ⟨by simp [externalEdit?, fresh], .inl fresh⟩
  | request r _ clean ih => exact ih.request clean
  | submit r _ exact ih => exact ih.submit exact
  | @receive _ _ h h' m _ e ih =>
    cases hinbox : h.inbox with
    | nil =>
      rw [receive_nil hinbox, ih.quiet] at e
      cases e
    | cons m rest =>
      rw [receive_cons hinbox] at e
      cases e
      exact ih.inbox rest
  | @poll _ _ h h' _ e ih =>
    cases hinbox : h.inbox with
    | nil =>
      rw [receive_nil hinbox, ih.quiet] at e
      cases e
      exact ih
    | cons m rest =>
      rw [receive_cons hinbox] at e
      cases e

theorem Alone.received_append (fresh : start.lastDigest = none) (empty : start.inbox = [])
    (alone : Alone start owing received h) : received ++ h.inbox = owing := by
  induction alone with
  | start => rw [empty, List.append_nil]
  | request r _ _ ih => rw [inbox_request, ih]
  | submit r _ _ ih => rw [inbox_submit, ← List.append_assoc, ih]
  | @receive _ _ h h' m alone e ih =>
    cases hinbox : h.inbox with
    | nil =>
      rw [receive_nil hinbox, (alone.quiet fresh).quiet] at e
      cases e
    | cons m rest =>
      rw [receive_cons hinbox] at e
      cases e
      rw [← ih, hinbox, List.append_assoc]
      rfl
  | @poll _ _ h h' alone e ih =>
    cases hinbox : h.inbox with
    | nil =>
      rw [receive_nil hinbox, (alone.quiet fresh).quiet] at e
      cases e
      exact ih
    | cons m rest =>
      rw [receive_cons hinbox] at e
      cases e

theorem lastDigest_request {response : HostResponse} (e : (h.request r).1 = .ok response)
    (failed : response.ok = false) : (h.request r).2.lastDigest = h.lastDigest := by
  by_cases op : r.op = Protocol.loadOp
  · have hlast : (h.switched r.path?).lastDigest = h.lastDigest := by cases r.path? <;> rfl
    rw [request_eq op] at e
    rw [request_load op]
    rcases load_cases h r.path? with ⟨d, -, hload⟩ | ⟨_, entry, -, -, hload⟩ |
      ⟨tree, -, hload⟩ | ⟨_, tree, -, hload⟩ <;> rw [hload] at e ⊢
    · cases e
      cases failed
    · exact hlast
    · cases e
      cases failed
    · exact hlast
  · rw [request_other op]

/-- A host that nobody else writes for delivers what its saves are owed, in the order in which they
were submitted, and nothing else. It matters that no request that fails shows anything new: a
document that one brings into view is delivered, if its digest is not the last one. -/
theorem Alone.received_exactly (fresh : start.lastDigest = none) (empty : start.inbox = [])
    (alone : Alone start owing received h) :
    received ++ h.inbox = owing ∧ (h.inbox = [] → h.receive = (.ok none, h)) ∧
      ∀ (r : HostRequest) (response : HostResponse) (d : Document) (last : String),
        h.inbox = [] → h.lastDigest = some last →
        (h.request r).1 = .ok response → response.ok = false →
        readDocument (h.request r).2.tree (h.request r).2.path = .ok d → d.digest ≠ last →
        (h.request r).2.receive =
          (.ok (some (.changed d)), { (h.request r).2 with lastDigest := some d.digest }) := by
  refine ⟨alone.received_append fresh empty, fun hinbox => ?_, ?_⟩
  · rw [receive_nil hinbox, (alone.quiet fresh).quiet]
  · intro r response d last hinbox hlast e failed hshows hne
    have hedit := externalEdit?_eq_some.mpr
      ⟨last, (lastDigest_request e failed).trans hlast, hshows, hne⟩
    rw [receive_nil ((inbox_request h r).trans hinbox), hedit]

-- ---------------------------------------------------------------------------
-- Two runs
-- ---------------------------------------------------------------------------

def german : Document := { language := "de" }

theorem german_wellFormed : german.WellFormed :=
  Document.wellFormed_of_read (s := Json.obj [("language", .str "de")]) rfl

theorem german_legible : german.Legible := ⟨by repeat' constructor, by decide⟩

/-- In an empty directory one save is accepted and one refused. -/
theorem received_exactly_two_saves : ∃ received h,
    Alone { path := ⟨"settings.json"⟩, tree := ⟨[], []⟩ }
      [.changed german, .persisted "1",
        .persistFailed "2" (.invalidRequest "persist without document")] received h ∧
      received = [.changed german, .persisted "1",
        .persistFailed "2" (.invalidRequest "persist without document")] ∧
      h.receive = (.ok none, h) := by
  let start : DiskHost := { path := ⟨"settings.json"⟩, tree := ⟨[], []⟩ }
  let accepted : HostRequest := .persist "1" german german.digest
  let refused : HostRequest := ⟨Protocol.high, Protocol.persistOp, "2", .null⟩
  have hsavable : accepted.savable = .ok german := HostRequest.savable_persist german_wellFormed
  have hwritten : writeDocument ⟨"settings.json"⟩ german ⟨[], []⟩ =
      (.ok (), ⟨[], [(["settings.json"], .file (.text german.toJson.pretty))]⟩) := rfl
  have haccepted : start.owed accepted = [.changed german, .persisted "1"] := by
    have hpersist : (start.persist accepted).1 = .ok () := by
      simp only [persist, hsavable, start, hwritten]
    simp only [owed, hsavable, hpersist]
    rfl
  have hrefused : ∀ h : DiskHost, h.owed refused =
      [.persistFailed "2" (.invalidRequest "persist without document")] := fun _ => rfl
  have fresh : Alone start [] [] start := .start
  have one := fresh.submit accepted fun d hd => by
    cases hsavable.symm.trans hd
    exact german_legible.exact
  have two := one.submit refused fun _ hd => by cases hd
  rw [haccepted, hrefused, List.nil_append] at two
  have hinbox : ((start.submit accepted).2.submit refused).2.inbox =
      [.changed german, .persisted "1",
        .persistFailed "2" (.invalidRequest "persist without document")] := by
    rw [inbox_submit, inbox_submit, haccepted, hrefused]
    rfl
  have drained := ((two.receive (receive_cons hinbox)).receive (receive_cons rfl)).receive
    (receive_cons rfl)
  obtain ⟨hreceived, hnothing, -⟩ := drained.received_exactly rfl rfl
  exact ⟨_, _, drained, (List.append_nil _).symm.trans hreceived, hnothing rfl⟩

/-- What others have in a directory before the host comes. -/
def strewn : FileTree :=
  ⟨[], [(["b.json"], .file (.text german.toJson.pretty)), (["b.json.tmp"], .directory)]⟩

def loadedBeside : DiskHost where
  path := ⟨"a.json"⟩
  tree := strewn.put ["a.json"] (.file (.text ({} : Document).toJson.pretty))
  lastDigest := some ({} : Document).digest

theorem german_digest_ne : german.digest ≠ ({} : Document).digest := by
  have hgerman : german.toValue.Everywhere Json.UnitsOrdered := by
    repeat' first | decide | constructor
  have hdefault : ({} : Document).toValue.Everywhere Json.UnitsOrdered := by
    repeat' first | decide | constructor
  rw [Document.digest_of_unitsOrdered german_wellFormed hgerman,
    Document.digest_of_unitsOrdered Document.wellFormed_default hdefault]
  decide +kernel

theorem load_strewn :
    ({ path := ⟨"a.json"⟩, tree := strewn } : DiskHost).load none = (.ok {}, loadedBeside) := by
  have habsent : strewn.has ⟨"a.json"⟩ = false := rfl
  have hwritten : writeDocument ⟨"a.json"⟩ {} strewn = (.ok (), loadedBeside.tree) := rfl
  simp only [load, habsent, hwritten]
  rfl

theorem load_blocked : loadedBeside.load (some "new/../b.json") = (.error (.io .isDirectory),
    { loadedBeside with
      path := ⟨"new/../b.json"⟩, tree := loadedBeside.tree.put ["new"] .directory }) := by
  have habsent : loadedBeside.tree.has ⟨"new/../b.json"⟩ = false := rfl
  have hblocked : writeDocument ⟨"new/../b.json"⟩ {} loadedBeside.tree =
      (.error .isDirectory, loadedBeside.tree.put ["new"] .directory) := rfl
  simp only [load, habsent, hblocked]
  rfl

/-- A load fails because the file beside cannot be written, but a directory that it made before
shows a document. That is delivered, although nobody has written it and nothing was saved. -/
theorem failed_load_reports_edit : ∃ start loaded failed : DiskHost,
    start = { path := ⟨"a.json"⟩, tree := strewn } ∧
    loaded = (start.request (.load "1" none)).2 ∧ loaded.receive = (.ok none, loaded) ∧
    failed = (loaded.request (.load "2" (some "new/../b.json"))).2 ∧
    failed.receive =
      (.ok (some (.changed german)), { failed with lastDigest := some german.digest }) := by
  refine ⟨_, loadedBeside, { loadedBeside with
      path := ⟨"new/../b.json"⟩, tree := loadedBeside.tree.put ["new"] .directory },
    rfl, ?_, ?_, ?_, ?_⟩
  · rw [request_load rfl]
    exact (congrArg Prod.snd load_strewn).symm
  · have hown : readDocument loadedBeside.tree loadedBeside.path = .ok {} :=
      readDocument_eq_ok.mpr ⟨({} : Document).toJson.pretty, rfl,
        Document.ofText?_pretty Document.wellFormed_default ⟨exact_default, by decide⟩⟩
    rw [receive_nil rfl, externalEdit?, hown]
    simp [loadedBeside]
  · rw [request_load rfl]
    exact (congrArg Prod.snd load_blocked).symm
  · have hshown : readDocument (loadedBeside.tree.put ["new"] .directory) ⟨"new/../b.json"⟩ =
        .ok german :=
      readDocument_eq_ok.mpr ⟨german.toJson.pretty, rfl,
        Document.ofText?_pretty german_wellFormed german_legible⟩
    have hedit := externalEdit?_eq_some (h := { loadedBeside with
      path := ⟨"new/../b.json"⟩, tree := loadedBeside.tree.put ["new"] .directory }).mpr
        ⟨_, rfl, hshown, german_digest_ne⟩
    rw [receive_nil rfl, hedit]

end ShellSettings.DiskHost
