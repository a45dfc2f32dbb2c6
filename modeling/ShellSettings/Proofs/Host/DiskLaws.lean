import ShellSettings.Host.Disk
import ShellSettings.Proofs.Disk.DirectoryLaws
import ShellSettings.Proofs.Document.TextRoundTrip
import ShellSettings.Proofs.Host.RequestLaws

/-!
# What a host on disk leaves behind

A document that was saved is the text of the file (`readText_writeDocument`). A
save that fails leaves the file as it was, once the directories on the way to it
were tried (`readDocument_of_error`).
-/

namespace ShellSettings

namespace DiskHost

open FileTree

variable {t t' t'' : FileTree} {p : FilePath} {q q' : Place} {name name' : String} {entry : Entry}
  {content : Content} {d d' : Document} {error : IoError}

-- ---------------------------------------------------------------------------
-- The file beside
-- ---------------------------------------------------------------------------

theorem besidePath_beside (h : p.lastName? = some name)
    (h' : (besidePath p).lastName? = some name') :
    (besidePath p).isAbsolute = p.isAbsolute ∧
      (besidePath p).names.dropLast = p.names.dropLast ∧ name' ≠ name := by
  rw [besidePath] at h' ⊢
  obtain ⟨habsolute, hnames, hname⟩ := FilePath.withExtension_beside (by decide) h h'
  refine ⟨habsolute, hnames, fun hsame => ?_⟩
  have hbase : FilePath.stem name ++ ".json" ≠ "" := fun h => by
    have := congrArg String.length h
    simp at this
  have hparts : "." ++ "json.tmp" = ".json" ++ ("." ++ "tmp") := by decide
  have hsplit : name = FilePath.stem name ++ ".json" ++ "." ++ "tmp" := calc
    name = FilePath.stem name ++ "." ++ "json.tmp" := hsame.symm.trans hname
    _ = FilePath.stem name ++ ".json" ++ "." ++ "tmp" := by
      rw [String.append_assoc, hparts, String.append_assoc, String.append_assoc]
  have hstem := congrArg FilePath.stem hsplit
  rw [FilePath.stem_append hbase (by decide)] at hstem
  have hlength := congrArg String.length hstem
  rw [String.length_append] at hlength
  have hjson : ".json".length = 5 := rfl
  omega

theorem locate_ne_beside (hb : t.locate (besidePath p) = .ok q)
    (hq : t.entry? q ≠ some .directory) (hp : t.locate p = .ok q') : q' ≠ q := by
  rintro rfl
  rcases locate_eq_ok.mp hb with ha | ⟨place, name', ha', hs'⟩
  · exact hq (approach_eq_ok.mp ha).2.2.2
  · rcases locate_eq_ok.mp hp with ha | ⟨place', name, ha, hs⟩
    · exact hq (approach_eq_ok.mp ha).2.2.2
    · obtain ⟨-, hlast, hway, hentry⟩ := approach_eq_ok.mp ha
      obtain ⟨-, hlast', hway', -⟩ := approach_eq_ok.mp ha'
      have hname : p.lastName? = some name := hlast.symm
      have hname' : (besidePath p).lastName? = some name' := hlast'.symm
      obtain ⟨habsolute, hnames, hne⟩ := besidePath_beside hname hname'
      simp only [← hlast, Option.isSome_some, if_true] at hway
      simp only [← hlast', habsolute, hnames, Option.isSome_some, if_true] at hway'
      obtain rfl : place = place' := Except.ok.inj (hway'.symm.trans hway)
      have hup := (FilePath.exists_of_lastName? hname).choose_spec.choose_spec.2.2.2
      have hup' := (FilePath.exists_of_lastName? hname').choose_spec.choose_spec.2.2.2
      simp only [step, hentry, hup, hup', if_false] at hs hs'
      split at hs
      · cases hs
      · split at hs'
        · cases hs'
        · simp [← Except.ok.inj hs', hne.symm] at hs

theorem find_write_beside (hw : write (besidePath p) content t = (.ok (), t')) :
    t'.find p = .ok entry ↔ t.find p = .ok entry := by
  obtain ⟨-, place, name, q, ha, hs, hq, rfl⟩ := write_eq_ok hw
  have hnil := ne_nil_of_not_directory hq
  have hbeside := locate_eq_ok.mpr (.inr ⟨place, name, ha, hs⟩)
  have hback : (t.put q (.file content)).KeepsDirectories t := by
    refine ⟨rfl, fun r hr => ?_⟩
    rw [entry?_put hnil] at hr
    split at hr
    · cases hr
    · exact hr
  constructor
  · refine hback.find fun r hl hr => ?_
    rwa [entry?_put hnil, if_neg (locate_ne_beside hbeside hq (hback.locate hl))] at hr
  · refine (keepsDirectories_put _ hq).find fun r hl hr => ?_
    rw [entry?_put hnil, if_neg (locate_ne_beside hbeside hq hl), hr]

-- ---------------------------------------------------------------------------
-- Saving
-- ---------------------------------------------------------------------------

def prepare (p : FilePath) : Disk Unit := fun t =>
  match p.parent? with
  | none => (.ok (), t)
  | some parent => ensureDirectories parent t

theorem writeDocument_eq (p : FilePath) (d : Document) (t : FileTree) :
    writeDocument p d t =
      match prepare p t with
      | (.error e, t) => (.error e, t)
      | (.ok (), t) =>
        match write (besidePath p) (.text d.toJson.pretty) t with
        | (.error e, t) => (.error e, t)
        | (.ok (), t) => rename (besidePath p) p t := by
  unfold writeDocument prepare
  generalize besidePath p = beside, Content.text d.toJson.pretty = content
  cases p.parent? <;> rfl

/-- The directories on the way to a path were tried. -/
def Prepared (p : FilePath) (t : FileTree) : Prop := (prepare p t).2 = t

theorem grows_prepare (p : FilePath) (t : FileTree) : t.Grows (prepare p t).2 := by
  unfold prepare
  split
  · exact .refl t
  · exact grows_ensurePieces _ _ t

theorem prepared_prepare (p : FilePath) (t : FileTree) : Prepared p (prepare p t).2 := by
  unfold Prepared prepare
  split
  · rfl
  · exact ensureDirectories_again _ t

theorem prepared_keeps (h : prepare p t = (.ok (), t')) (hkeeps : t'.KeepsDirectories t'') :
    Prepared p t'' := by
  unfold Prepared prepare at *
  split at h
  · rfl
  · exact ensurePieces_keeps h hkeeps

theorem readText_writeDocument (h : writeDocument p d t = (.ok (), t')) :
    t'.readText p = .ok d.toJson.pretty := by
  rw [writeDocument_eq] at h
  split at h
  · cases h
  · split at h
    · cases h
    · rename_i hw
      exact readText_replaced hw h

theorem writeDocument_eq_error (h : writeDocument p d t = (.error error, t')) :
    t' = (prepare p t).2 ∨ prepare p t = (.ok (), (prepare p t).2) ∧
      write (besidePath p) (.text d.toJson.pretty) (prepare p t).2 = (.ok (), t') := by
  rw [writeDocument_eq] at h
  split at h
  · rename_i hp
    cases h
    exact .inl (by rw [hp])
  · rename_i hp
    split at h
    · rename_i hw
      cases h
      exact .inl (by rw [hp, write_eq_error hw])
    · rename_i hw
      cases rename_eq_error h
      exact .inr ⟨by rw [hp], by rw [hp, hw]⟩

theorem prepared_of_error (h : writeDocument p d t = (.error error, t')) : Prepared p t' := by
  rcases writeDocument_eq_error h with rfl | ⟨hp, hw⟩
  · exact prepared_prepare p t
  · obtain ⟨-, place, name, q, -, -, hq, rfl⟩ := write_eq_ok hw
    exact prepared_keeps hp (keepsDirectories_put _ hq)

theorem find_of_error (h : writeDocument p d t = (.error error, t')) :
    t'.find p = .ok entry ↔ (prepare p t).2.find p = .ok entry := by
  rcases writeDocument_eq_error h with rfl | ⟨-, hw⟩
  · rfl
  · exact find_write_beside hw

-- ---------------------------------------------------------------------------
-- Reading
-- ---------------------------------------------------------------------------

theorem readDocument_eq_ok : readDocument t p = .ok d ↔
    ∃ text, t.find p = .ok (.file (.text text)) ∧ Document.ofText? text = .ok d := by
  unfold readDocument
  simp only [← readText_eq_ok]
  cases ht : t.readText p with
  | error e => simp
  | ok text => cases hd : Document.ofText? text <;> simp [hd]

theorem readDocument_written (h : writeDocument p d t = (.ok (), t')) :
    readDocument t' p = .ok d' ↔ Document.ofText? d.toJson.pretty = .ok d' := by
  rw [readDocument_eq_ok, readText_eq_ok.mp (readText_writeDocument h)]
  simp

/-- A save that failed brings no document into view, where the path showed something before or its
directories were tried. -/
theorem readDocument_of_error (h : writeDocument p d t = (.error error, t'))
    (ht : Prepared p t ∨ ∃ entry, t.find p = .ok entry) (hr : readDocument t' p = .ok d') :
    readDocument t p = .ok d' := by
  obtain ⟨text, hfind, hd⟩ := readDocument_eq_ok.mp hr
  rw [find_of_error h] at hfind
  refine readDocument_eq_ok.mpr ⟨text, ?_, hd⟩
  rcases ht with ht | ⟨entry, hentry⟩
  · rwa [ht] at hfind
  · cases hfind.symm.trans ((grows_prepare p t).find hentry)
    exact hentry

theorem wellFormed_of_readDocument (h : readDocument t p = .ok d) : d.WellFormed := by
  obtain ⟨text, -, hd⟩ := readDocument_eq_ok.mp h
  exact Document.wellFormed_of_ofText? hd

-- ---------------------------------------------------------------------------
-- What requests and saves come to
-- ---------------------------------------------------------------------------

variable {h : DiskHost} {r : HostRequest}

def switched (h : DiskHost) : Option String → DiskHost
  | some p => { h with path := ⟨p⟩ }
  | none => h

theorem switched_tree (h : DiskHost) (path : Option String) : (h.switched path).tree = h.tree := by
  cases path <;> rfl

theorem load_of_find {path : Option String}
    (hfind : (h.switched path).tree.find (h.switched path).path = .ok entry) :
    h.load path = match readDocument (h.switched path).tree (h.switched path).path with
      | .error e => (.error e, h.switched path)
      | .ok d => (.ok d, { h.switched path with lastDigest := some d.digest }) := by
  have hload : h.load path = (h.switched path).load none := by cases path <;> rfl
  rw [hload]
  exact if_pos (has_eq_true.mpr ⟨entry, hfind⟩)

/-- Every way in which a load comes out: there is a document, there is something else, or there is
nothing and a default is written or cannot be. -/
theorem load_cases (h : DiskHost) (path : Option String) :
    (∃ d, readDocument (h.switched path).tree (h.switched path).path = .ok d ∧
      h.load path = (.ok d, { h.switched path with lastDigest := some d.digest })) ∨
    (∃ e entry, (h.switched path).tree.find (h.switched path).path = .ok entry ∧
      (∀ d, readDocument (h.switched path).tree (h.switched path).path ≠ .ok d) ∧
      h.load path = (.error e, h.switched path)) ∨
    (∃ tree, writeDocument (h.switched path).path {} (h.switched path).tree = (.ok (), tree) ∧
      h.load path = (.ok {}, { h.switched path with
        tree, lastDigest := some ({} : Document).digest })) ∨
    ∃ e tree, writeDocument (h.switched path).path {} (h.switched path).tree = (.error e, tree) ∧
      h.load path = (.error (.io e), { h.switched path with tree }) := by
  by_cases hhas : (h.switched path).tree.has (h.switched path).path = true
  · obtain ⟨entry, hentry⟩ := has_eq_true.mp hhas
    rw [load_of_find hentry]
    cases hr : readDocument (h.switched path).tree (h.switched path).path with
    | error e => exact .inr (.inl ⟨e, entry, hentry, nofun, rfl⟩)
    | ok d => exact .inl ⟨d, rfl, rfl⟩
  · have hload : h.load path = (h.switched path).load none := by cases path <;> rfl
    rw [hload]
    generalize h.switched path = h at *
    simp only [load, if_neg hhas]
    rcases hw : writeDocument h.path {} h.tree with ⟨e | _, tree⟩
    · exact .inr (.inr (.inr ⟨e, tree, rfl, rfl⟩))
    · exact .inr (.inr (.inl ⟨tree, rfl, rfl⟩))

theorem wellFormed_of_load {path : Option String} (hload : (h.load path).1 = .ok d) :
    d.WellFormed := by
  rcases load_cases h path with ⟨d', hr, heq⟩ | ⟨e', entry, -, -, heq⟩ | ⟨tree, -, heq⟩ |
    ⟨e', tree, -, heq⟩ <;> rw [heq] at hload <;> cases hload
  · exact wellFormed_of_readDocument hr
  · exact Document.wellFormed_default

theorem persist_cases (h : DiskHost) (r : HostRequest) :
    (∃ d tree, r.savable = .ok d ∧ writeDocument h.path d h.tree = (.ok (), tree) ∧
      h.persist r = (.ok (), { h with
        tree, lastDigest := some d.digest, inbox := h.inbox ++ [.changed d] })) ∨
    (∃ e, r.savable = .error e ∧ h.persist r = (.error e, h)) ∨
    ∃ d e tree, writeDocument h.path d h.tree = (.error e, tree) ∧
      h.persist r =
        (.error (.storageFailure (TransportError.io e).message), { h with tree }) := by
  unfold persist
  cases hr : r.savable with
  | error e => exact .inr (.inl ⟨e, rfl, rfl⟩)
  | ok d =>
    dsimp only
    rcases hw : writeDocument h.path d h.tree with ⟨e | _, tree⟩
    · exact .inr (.inr ⟨d, e, tree, hw, rfl⟩)
    · exact .inl ⟨d, tree, rfl, hw, rfl⟩

theorem persist_error {e : HostError} (hr : r.savable = .ok d)
    (hpersist : (h.persist r).1 = .error e) :
    ∃ io, e = .storageFailure (TransportError.io io).message := by
  rcases persist_cases h r with ⟨d', tree, -, -, heq⟩ | ⟨e', herror, -⟩ | ⟨d', io, tree, -, heq⟩
  · simp [heq] at hpersist
  · cases hr.symm.trans herror
  · rw [heq] at hpersist
    exact ⟨io, (Except.error.inj hpersist).symm⟩

theorem readText_persist (hr : r.savable = .ok d) (hpersist : (h.persist r).1 = .ok ()) :
    (h.persist r).2.tree.readText (h.persist r).2.path = .ok d.toJson.pretty := by
  rcases persist_cases h r with ⟨d', tree, hsavable, hw, heq⟩ | ⟨e, -, heq⟩ | ⟨d', e, tree, -, heq⟩
  · cases hr.symm.trans hsavable
    rw [heq]
    exact readText_writeDocument hw
  · simp [heq] at hpersist
  · simp [heq] at hpersist

theorem request_load (op : r.op = Protocol.loadOp) : (h.request r).2 = (h.load r.path?).2 := by
  unfold request
  rw [if_neg (not_not.mpr op)]
  rcases h.load r.path? with ⟨_ | _, h'⟩ <;> rfl

theorem request_eq (op : r.op = Protocol.loadOp) : (h.request r).1 =
    match (h.load r.path?).1 with
    | .ok d => .ok (.success Protocol.high r.id (.obj [("document", d.toValue)]))
    | .error e => .ok (.failure Protocol.high r.id (.storageFailure e.message)) := by
  unfold request
  rw [if_neg (not_not.mpr op)]
  rcases h.load r.path? with ⟨_ | _, h'⟩ <;> rfl

theorem request_other (op : r.op ≠ Protocol.loadOp) : (h.request r).2 = h := by
  unfold request
  rw [if_pos op]

theorem submit_persist (op : r.op = Protocol.persistOp) : (h.submit r).2 =
    { (h.persist r).2 with inbox := (h.persist r).2.inbox ++ [match (h.persist r).1 with
      | .ok () => .persisted r.id
      | .error e => .persistFailed r.id e] } := by
  unfold submit
  exact congrArg Prod.snd (if_neg (not_not.mpr op))

theorem submit_other (op : r.op ≠ Protocol.persistOp) : (h.submit r).2 = h := by
  unfold submit
  rw [if_pos op]

theorem submit_written {tree : FileTree} (id : String) (hd : d.WellFormed)
    (hw : writeDocument h.path d h.tree = (.ok (), tree)) :
    h.submit (.persist id d d.digest) = (.ok (), { h with
      tree, lastDigest := some d.digest, inbox := h.inbox ++ [.changed d, .persisted id] }) := by
  have op : (HostRequest.persist id d d.digest).op = Protocol.persistOp := rfl
  simp only [submit, op, ne_eq, not_true, if_false, persist,
    HostRequest.savable_persist hd, hw, List.append_assoc]
  rfl

theorem submit_unwritten {tree : FileTree} (id : String) (hd : d.WellFormed)
    (hw : writeDocument h.path d h.tree = (.error error, tree)) :
    h.submit (.persist id d d.digest) = (.ok (), { h with
      tree
      inbox := h.inbox ++
        [.persistFailed id (.storageFailure (TransportError.io error).message)] }) := by
  have op : (HostRequest.persist id d d.digest).op = Protocol.persistOp := rfl
  simp only [submit, op, ne_eq, not_true, if_false, persist, HostRequest.savable_persist hd, hw]
  rfl

/-- What is delivered for a save: the change and its result, or its failure. -/
def owed (h : DiskHost) (r : HostRequest) : List HostMessage :=
  if r.op = Protocol.persistOp then
    match r.savable, (h.persist r).1 with
    | .ok d, .ok () => [.changed d, .persisted r.id]
    | _, .ok () => [.persisted r.id]
    | _, .error e => [.persistFailed r.id e]
  else []

theorem inbox_request (h : DiskHost) (r : HostRequest) : (h.request r).2.inbox = h.inbox := by
  by_cases op : r.op = Protocol.loadOp
  · have hinbox : (h.switched r.path?).inbox = h.inbox := by cases r.path? <;> rfl
    rw [request_load op]
    rcases load_cases h r.path? with ⟨d, -, hload⟩ | ⟨e, entry, -, -, hload⟩ |
      ⟨tree, -, hload⟩ | ⟨e, tree, -, hload⟩ <;> rw [hload] <;> exact hinbox
  · rw [request_other op]

theorem inbox_submit (h : DiskHost) (r : HostRequest) :
    (h.submit r).2.inbox = h.inbox ++ h.owed r := by
  unfold owed
  by_cases op : r.op = Protocol.persistOp
  · rw [submit_persist op, if_pos op]
    rcases persist_cases h r with ⟨d, tree, hsavable, -, hpersist⟩ | ⟨e, -, hpersist⟩ |
      ⟨d, e, tree, -, hpersist⟩
    · simp [hpersist, hsavable]
    · simp [hpersist]
    · simp [hpersist]
  · rw [submit_other op, if_neg op, List.append_nil]

theorem receive_nil (hinbox : h.inbox = []) : h.receive =
    match h.externalEdit? with
    | none => (.ok none, h)
    | some d => (.ok (some (.changed d)), { h with lastDigest := some d.digest }) := by
  cases h
  cases hinbox
  rfl

theorem receive_cons {m : HostMessage} {rest : List HostMessage} (hinbox : h.inbox = m :: rest) :
    h.receive = (.ok (some m), { h with inbox := rest }) := by
  simp only [receive, hinbox]

theorem externalEdit?_eq_some : h.externalEdit? = some d ↔ ∃ last, h.lastDigest = some last ∧
    readDocument h.tree h.path = .ok d ∧ d.digest ≠ last := by
  unfold externalEdit?
  cases hlast : h.lastDigest with
  | none => simp
  | some last =>
    cases hr : readDocument h.tree h.path with
    | error e => simp
    | ok d' =>
      simp only [Option.some.injEq, Except.ok.injEq, exists_eq_left']
      split
      · rename_i hd
        simp only [reduceCtorEq, false_iff, not_and, not_not]
        rintro rfl
        exact hd
      · rename_i hd
        refine ⟨?_, fun hboth => congrArg some hboth.1⟩
        rintro ⟨rfl⟩
        exact ⟨rfl, hd⟩

end DiskHost

end ShellSettings
