import ShellSettings.Proofs.Document.DigestLaws
import ShellSettings.Proofs.Host.DiskLaws

/-!
# Which edits of others a host on disk notices

A host on disk tells another document from the one it last saw by digest, and a
digest forgets how far numbers are from the nearest double. So it notices what
others put into its file exactly if that differs by more than such rounding
(`LastSaw.noticed_iff`).
-/

namespace ShellSettings.DiskHost

open FileTree

/-- The document that a host last read from its file or wrote to it, whatever came in between:
saves and loads that failed, messages taken that were waiting, and others at the files. -/
inductive LastSaw (d : Document) : DiskHost → Prop
  | loaded {h : DiskHost} {r : HostRequest} (op : r.op = Protocol.loadOp)
    (load : (h.load r.path?).1 = .ok d) : LastSaw d (h.request r).2
  | saved {h : DiskHost} {r : HostRequest} (op : r.op = Protocol.persistOp)
    (savable : r.savable = .ok d) (persist : (h.persist r).1 = .ok ()) : LastSaw d (h.submit r).2
  | noticed {h : DiskHost} (drained : h.inbox = []) (edit : h.externalEdit? = some d) :
    LastSaw d h.receive.2
  | notLoaded {h : DiskHost} {r : HostRequest} (saw : LastSaw d h)
    (failed : r.op ≠ Protocol.loadOp ∨ r.path? = none ∧ ∃ e, (h.load none).1 = .error e) :
    LastSaw d (h.request r).2
  | notSaved {h : DiskHost} {r : HostRequest} (saw : LastSaw d h)
    (failed : r.op ≠ Protocol.persistOp ∨ ∃ e, (h.persist r).1 = .error e) :
    LastSaw d (h.submit r).2
  | took {h : DiskHost} (saw : LastSaw d h) (quiet : h.inbox ≠ [] ∨ h.externalEdit? = none) :
    LastSaw d h.receive.2
  | edited {h : DiskHost} (saw : LastSaw d h) (tree : FileTree) : LastSaw d { h with tree }

variable {h : DiskHost} {d d' : Document} {r : HostRequest} {text : String} {tree : FileTree}

theorem LastSaw.remembered (saw : LastSaw d h) :
    d.WellFormed ∧ h.lastDigest = some d.digest := by
  induction saw with
  | @loaded h r op load =>
    rw [request_load op]
    -- A load that succeeds has read the document or has written the default one.
    rcases load_cases h r.path? with ⟨d', hr, hload⟩ | ⟨e, entry, -, -, hload⟩ |
      ⟨tree, -, hload⟩ | ⟨e, tree, -, hload⟩
    all_goals
      rw [hload] at load ⊢
      cases load
    · exact ⟨wellFormed_of_readDocument hr, rfl⟩
    · exact ⟨Document.wellFormed_default, rfl⟩
  | @saved h r op savable persist =>
    rw [submit_persist op]
    rcases persist_cases h r with ⟨d', tree, hsavable, -, hpersist⟩ | ⟨e, -, hpersist⟩ |
      ⟨d', e, tree, -, hpersist⟩
    all_goals rw [hpersist] at persist ⊢
    · cases hsavable.symm.trans savable
      exact ⟨r.wellFormed_of_savable savable, rfl⟩
    · cases persist
    · cases persist
  | @noticed h drained edit =>
    obtain ⟨last, -, hr, -⟩ := externalEdit?_eq_some.mp edit
    rw [receive_nil drained, edit]
    exact ⟨wellFormed_of_readDocument hr, rfl⟩
  | @notLoaded h r _ failed ih =>
    by_cases op : r.op = Protocol.loadOp
    -- Without a path of its own a load stays at the file that was seen.
    · obtain ⟨hpath, e, load⟩ := failed.resolve_left (not_not.mpr op)
      rw [request_load op, hpath]
      rcases load_cases h none with ⟨d', -, hload⟩ | ⟨e, entry, -, -, hload⟩ |
        ⟨tree, -, hload⟩ | ⟨e, tree, -, hload⟩
      all_goals rw [hload] at load ⊢
      · cases load
      · exact ih
      · cases load
      · exact ih
    · rwa [request_other op]
  | @notSaved h r _ failed ih =>
    by_cases op : r.op = Protocol.persistOp
    · obtain ⟨e, persist⟩ := failed.resolve_left (not_not.mpr op)
      rw [submit_persist op]
      rcases persist_cases h r with ⟨d', tree, -, -, hpersist⟩ | ⟨e, -, hpersist⟩ |
        ⟨d', e, tree, -, hpersist⟩
      all_goals rw [hpersist] at persist ⊢
      · cases persist
      · exact ih
      · exact ih
    · rwa [submit_other op]
  | @took h _ quiet ih =>
    cases hinbox : h.inbox with
    | nil =>
      rw [receive_nil hinbox, quiet.resolve_left (not_not.mpr hinbox)]
      exact ih
    | cons m rest =>
      rw [receive_cons hinbox]
      exact ih
  | edited _ _ ih => exact ih

/-- Two documents that no host on disk can tell apart. -/
def Confused (d d' : Document) : Prop :=
  d.SameRounded d' ∨ Sha256.Collides d.toJson.canonical d'.toJson.canonical

theorem digest_eq_iff (hd : d.WellFormed) (hd' : d'.WellFormed) :
    d.digest = d'.digest ↔ Confused d d' := by
  constructor
  · intro h
    by_cases hhash : Sha256.Collides d.toJson.canonical d'.toJson.canonical
    · exact .inr hhash
    · exact .inl ((Document.digest_eq_iff hd hd' hhash).mp h)
  · rintro (h | h)
    · exact h.digest_eq hd hd'
    · exact h.2

open Classical in
theorem LastSaw.externalEdit?_eq (saw : LastSaw d h)
    (hread : readDocument tree h.path = .ok d') :
    ({ h with tree } : DiskHost).externalEdit? = if Confused d d' then none else some d' := by
  obtain ⟨hd, hlast⟩ := saw.remembered
  simp only [externalEdit?, hlast, hread, ← digest_eq_iff hd (wellFormed_of_readDocument hread),
    eq_comm]

theorem LastSaw.receive_confused (saw : LastSaw d h) (drained : h.inbox = [])
    (hread : readDocument tree h.path = .ok d') (hconfused : Confused d d') :
    ({ h with tree } : DiskHost).receive = (.ok none, { h with tree }) := by
  have hreceive := receive_nil (h := { h with tree }) drained
  rwa [saw.externalEdit?_eq hread, if_pos hconfused] at hreceive

/-- Where nothing is waiting, a document that others put into the file is delivered by the next
`receive`, unless it differs from the last one seen by no more than the rounding of numbers to
doubles, or their texts collide. After that, or without it, there is nothing to deliver. -/
theorem LastSaw.delivered_or_confused (saw : LastSaw d h) (drained : h.inbox = [])
    (written : tree.readText h.path = .ok text) (decoded : Document.ofText? text = .ok d') :
    let edited : DiskHost := { h with tree }
    let after : DiskHost := { edited with lastDigest := some d'.digest }
    (¬ Confused d d' → edited.receive = (.ok (some (.changed d')), after)) ∧
      (Confused d d' → edited.receive = (.ok none, edited)) ∧
      after.receive = (.ok none, after) := by
  intro edited after
  have hread : readDocument tree h.path = .ok d' :=
    readDocument_eq_ok.mpr ⟨text, readText_eq_ok.mp written, decoded⟩
  have hafter : after.externalEdit? = none := by simp [after, edited, externalEdit?, hread]
  refine ⟨fun hother => ?_, saw.receive_confused drained hread, ?_⟩
  · have hreceive := receive_nil (h := edited) drained
    rwa [saw.externalEdit?_eq hread, if_neg hother] at hreceive
  · rw [receive_nil (h := after) drained, hafter]

-- ---------------------------------------------------------------------------
-- Volumes that round alike
-- ---------------------------------------------------------------------------

def holding (d : Document) : FileTree := ⟨[], [(["settings.json"], .file (.text d.toJson.pretty))]⟩

theorem readText_holding (d : Document) :
    (holding d).readText ⟨"settings.json"⟩ = .ok d.toJson.pretty := rfl

def withVolume (volume : Int) : Document := { extra := Map.ofList [("volume", .int volume)] }

theorem withVolume_wellFormed (volume : Int) : (withVolume volume).WellFormed :=
  Document.wellFormed_of_read (s := Json.obj [("volume", .int volume)]) rfl

theorem withVolume_legible (volume : Int) (h : -Number.signedLimit ≤ volume)
    (h' : volume < Number.wordLimit) : (withVolume volume).Legible := by
  have hdepth : (withVolume volume).toJson.depth = 2 := rfl
  refine ⟨?_, by rw [hdepth]; decide⟩
  repeat' constructor
  · exact h
  · exact h'

def opened (d : Document) : DiskHost :=
  (({ path := ⟨"settings.json"⟩, tree := holding d } : DiskHost).request (.load "1" none)).2

theorem load_holding (hd : d.WellFormed) (hl : d.Legible) :
    ({ path := ⟨"settings.json"⟩, tree := holding d } : DiskHost).load none =
      (.ok d, { path := ⟨"settings.json"⟩, tree := holding d, lastDigest := some d.digest }) := by
  have hread : readDocument (holding d) ⟨"settings.json"⟩ = .ok d := by
    rw [readDocument, readText_holding]
    simp only [Document.ofText?_pretty hd hl]
  have hhas : (holding d).has ⟨"settings.json"⟩ = true := rfl
  simp only [load, hhas, hread, if_true]

theorem lastSaw_opened (hd : d.WellFormed) (hl : d.Legible) : LastSaw d (opened d) :=
  .loaded rfl (congrArg Prod.fst (load_holding hd hl))

theorem opened_eq (hd : d.WellFormed) (hl : d.Legible) : opened d =
    { path := ⟨"settings.json"⟩, tree := holding d, lastDigest := some d.digest } := by
  rw [opened, request_load rfl]
  exact congrArg Prod.snd (load_holding hd hl)

theorem not_confused_volumes : ¬ Confused (withVolume 1) (withVolume 2) := by
  have hbefore : (withVolume 1).toValue.Everywhere Json.UnitsOrdered := by
    repeat' first | decide | constructor
  have hafter : (withVolume 2).toValue.Everywhere Json.UnitsOrdered := by
    repeat' first | decide | constructor
  rw [← digest_eq_iff (withVolume_wellFormed 1) (withVolume_wellFormed 2),
    Document.digest_of_unitsOrdered (withVolume_wellFormed 1) hbefore,
    Document.digest_of_unitsOrdered (withVolume_wellFormed 2) hafter]
  decide +kernel

/-- A louder volume is delivered. -/
theorem delivered_or_confused_louder :
    LastSaw (withVolume 1) (opened (withVolume 1)) ∧ (opened (withVolume 1)).inbox = [] ∧
      (holding (withVolume 2)).readText (opened (withVolume 1)).path =
        .ok (withVolume 2).toJson.pretty ∧
      Document.ofText? (withVolume 2).toJson.pretty = .ok (withVolume 2) ∧
      let edited : DiskHost := { opened (withVolume 1) with tree := holding (withVolume 2) }
      edited.receive = (.ok (some (.changed (withVolume 2))),
        { edited with lastDigest := some (withVolume 2).digest }) := by
  have hbefore := withVolume_legible 1 (by decide) (by decide)
  have hafter := withVolume_legible 2 (by decide) (by decide)
  have saw := lastSaw_opened (withVolume_wellFormed 1) hbefore
  have hopened := opened_eq (withVolume_wellFormed 1) hbefore
  have drained : (opened (withVolume 1)).inbox = [] := by rw [hopened]
  have written : (holding (withVolume 2)).readText (opened (withVolume 1)).path =
      .ok (withVolume 2).toJson.pretty := by
    rw [hopened]
    exact readText_holding (withVolume 2)
  have decoded := Document.ofText?_pretty (withVolume_wellFormed 2) hafter
  exact ⟨saw, drained, written, decoded,
    (saw.delivered_or_confused drained written decoded).1 not_confused_volumes⟩

/-- A volume that is another number but the same double is an edit that is missed. -/
theorem volume_edit_missed : ∃ (h : DiskHost) (d d' : Document) (tree : FileTree) (text : String),
    LastSaw d h ∧ h.inbox = [] ∧ tree.readText h.path = .ok text ∧
      Document.ofText? text = .ok d' ∧ d.same d' = false ∧
      ({ h with tree } : DiskHost).receive = (.ok none, { h with tree }) := by
  have hbefore := withVolume_legible 9007199254740992 (by decide) (by decide)
  have hafter := withVolume_legible 9007199254740993 (by decide) (by decide)
  have saw := lastSaw_opened (withVolume_wellFormed _) hbefore
  have hopened := opened_eq (withVolume_wellFormed _) hbefore
  have decoded := Document.ofText?_pretty (withVolume_wellFormed _) hafter
  have hread : readDocument (holding (withVolume 9007199254740993))
      (opened (withVolume 9007199254740992)).path = .ok (withVolume 9007199254740993) := by
    rw [hopened]
    exact readDocument_eq_ok.mpr ⟨_, readText_eq_ok.mp (readText_holding _), decoded⟩
  have drained : (opened (withVolume 9007199254740992)).inbox = [] := by rw [hopened]
  refine ⟨opened (withVolume 9007199254740992), _, withVolume 9007199254740993,
    holding (withVolume 9007199254740993), _, saw, drained, ?_, decoded, by decide +kernel,
    saw.receive_confused drained hread (.inl rfl)⟩
  rw [hopened]
  exact readText_holding _

end ShellSettings.DiskHost
