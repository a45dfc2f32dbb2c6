import ShellSettings.Proofs.Json.SameLaws
import ShellSettings.Proofs.Store.CommandLaws

/-!
# Revisions

An observer that has seen a revision need not look at the document again while the
revision stays: a command raises it by one exactly if it changes the current
document, a document of the host raises it in any case, and what is refused changes
nothing but how many ids were drawn. So along any run revisions only go up, and
two states of one revision have one document (`Store.run_revisions`).
-/

namespace ShellSettings

-- ---------------------------------------------------------------------------
-- Documents that are the same
-- ---------------------------------------------------------------------------

theorem Json.same_ofStrings {xs ys : List String} :
    (ofStrings xs).same (ofStrings ys) = true ↔ xs = ys := by
  simp only [ofStrings, same]
  induction xs generalizing ys with
  | nil => cases ys <;> simp [sameItems]
  | cons x xs ih => cases ys <;> simp [sameItems, same, ih]

namespace Document

variable {d e : Document} {kind : ResourceKind} {keep : String → Bool}

theorem same_self (d : Document) : d.same d = true := Json.same_self d.toJson

theorem resources_of_same_collections {cs es : List Collection}
    (h : Json.sameItems (cs.map Collection.toJson) (es.map Collection.toJson) = true) :
    cs.map (fun c => (c.id, c.resources)) = es.map fun c => (c.id, c.resources) := by
  induction cs generalizing es with
  | nil => cases es <;> simp_all [Json.sameItems]
  | cons c cs ih =>
    cases es with
    | nil => simp [Json.sameItems] at h
    | cons e es =>
      obtain ⟨hhead, hrest⟩ := (Bool.and_eq_true _ _).mp h
      simp only [Collection.toJson, Collection.members, Json.same, List.map_cons,
        List.cons_append, Collection.Member.write, Json.sameMembers, Bool.and_eq_true,
        beq_iff_eq, Json.same_ofStrings] at hhead
      obtain ⟨⟨-, hid⟩, -, ⟨-, hresources⟩, -⟩ := hhead
      simp [hid, hresources, ih hrest]

theorem collections_of_same (h : d.same e = true) :
    d.collections.map (fun c => (c.id, c.resources)) =
      e.collections.map fun c => (c.id, c.resources) := by
  simp only [same, toJson, members, Json.same, List.map_cons, List.cons_append, Member.write,
    Json.sameMembers, Bool.and_eq_true] at h
  obtain ⟨-, -, ⟨-, hcollections⟩, -⟩ := h
  exact resources_of_same_collections hcollections

theorem resources_of_same (h : d.same e = true) (kind : ResourceKind) :
    d.resources kind = e.resources kind := by
  have hcollections := collections_of_same h
  simp only [same, toJson, members, Json.same, List.map_cons, List.cons_append, Member.write,
    Json.sameMembers, Bool.and_eq_true, Json.same_ofStrings] at h
  obtain ⟨-, -, -, -, ⟨-, hthemes⟩, ⟨-, hicons⟩, -⟩ := h
  cases kind with
  | theme => simp [resources, hthemes]
  | iconPack => simp [resources, hicons]
  | widget => rfl
  | wallpaper =>
    have hflat : ∀ cs : List Collection,
        cs.flatMap (fun c => c.resources.map fun id => (id, Reference.wallpaper c.id id)) =
          (cs.map fun c => (c.id, c.resources)).flatMap fun c =>
            c.2.map fun id => (id, .wallpaper c.1 id) := by
      simp [List.flatMap_map]
    simp only [resources, hflat, hcollections]

/-- Dropping what is not listed gives another document, if there is something to drop. -/
theorem same_retain (h : d.unlisted kind keep ≠ []) : d.same (d.retain kind keep) = false := by
  refine Bool.eq_false_iff.mpr fun hsame => h ?_
  have hkept : (d.retain kind keep).unlisted kind keep = [] := unlisted_retain_self
  rwa [unlisted, resources_of_same hsame]

end Document

-- ---------------------------------------------------------------------------
-- One command
-- ---------------------------------------------------------------------------

namespace Loaded

variable {l l' l'' : Loaded}

/-- The revision is raised by one if another document became the current one, and by nothing if
none did. -/
def Advances (l l' : Loaded) : Prop :=
  (l'.current = l.current ∧ l'.revision = l.revision) ∨
    (l.current.same l'.current = false ∧ l'.revision = l.revision + 1)

theorem advances_committed (l : Loaded) (d : Document) : l.Advances (l.committed d) := by
  unfold committed
  split
  · exact .inl ⟨rfl, rfl⟩
  · rename_i hsame
    exact .inr ⟨Bool.eq_false_iff.mpr hsame, rfl⟩

/-- Revisions go up, and one revision has one document. -/
def Precedes (l l' : Loaded) : Prop :=
  l.revision ≤ l'.revision ∧ (l.revision = l'.revision → l.current = l'.current)

theorem Precedes.refl (l : Loaded) : l.Precedes l := ⟨Nat.le_refl _, fun _ => rfl⟩

theorem Precedes.trans (h : l.Precedes l') (h' : l'.Precedes l'') : l.Precedes l'' := by
  refine ⟨Nat.le_trans h.1 h'.1, fun heq => ?_⟩
  have hfirst : l.revision = l'.revision := Nat.le_antisymm h.1 (heq ▸ h'.1)
  exact (h.2 hfirst).trans (h'.2 (hfirst ▸ heq))

theorem Precedes.of_succ (h : l'.revision = l.revision + 1) : l.Precedes l' :=
  ⟨by omega, by omega⟩

theorem Advances.precedes (h : l.Advances l') : l.Precedes l' := by
  rcases h with ⟨hcurrent, hrevision⟩ | ⟨-, hrevision⟩
  · exact ⟨Nat.le_of_eq hrevision.symm, fun _ => hcurrent.symm⟩
  · exact .of_succ hrevision

end Loaded

namespace Store

variable {s : Store} {c : StoreCommand} {l : Loaded} {e : StoreError}

theorem refused_execute (h : (s.execute c).1 = .error e) :
    (s.execute c).2 = { s with ids := (s.execute c).2.ids } := by
  have settled : ∀ r : Except StoreError Store, (s.settle r).1 = .error e → (s.settle r).2 = s := by
    rintro (e | t) hr
    · rfl
    · cases hr
  rcases c.builds_cases with hc | ⟨d, rfl | rfl⟩ | ⟨d, rfl⟩ | rfl | ⟨feed, rfl⟩
  · have hconcluded := concluded_execute (s := s) hc
    rw [h] at hconcluded
    exact hconcluded.refused_eq
  · cases h
  · cases h
  · have hs := settled _ h
    simp only [execute] at hs ⊢
    rw [hs]
  · have hs := settled _ h
    simp only [execute] at hs ⊢
    rw [hs]
  · cases h

theorem advances_restore (hl : s.loaded = some l) :
    ∃ l', (s.execute .restore).2.loaded = some l' ∧ l.Advances l' := by
  by_cases hdirty : l.isDirty = true
  · refine ⟨{ l with current := l.snapshot, revision := l.revision + 1 },
      by simp [execute, restore, settle, hl, hdirty], .inr ⟨?_, rfl⟩⟩
    simpa [Loaded.isDirty] using hdirty
  · exact ⟨l, by simp [execute, restore, settle, hl, hdirty], .inl ⟨rfl, rfl⟩⟩

theorem advances_applyCatalog (feed : Feed) (hl : s.loaded = some l) :
    ∃ l', (s.applyCatalog feed).1.loaded = some l' ∧ l.Advances l' := by
  simp only [applyCatalog, hl, Document.prune, List.isEmpty_iff]
  refine ⟨_, rfl, ?_⟩
  by_cases hdropped : l.current.unlisted feed.kind feed.ids.contains = []
  · left
    simp only [hdropped, if_true]
    split <;> exact ⟨rfl, rfl⟩
  · right
    simp only [hdropped, if_false]
    split <;> exact ⟨Document.same_retain hdropped, rfl⟩

/-- Whatever does not install raises the revision by one if it changes the current document, and
not at all if it does not. -/
theorem advances_execute (hc : ¬c.Installs) (hl : s.loaded = some l) :
    ∃ l', (s.execute c).2.loaded = some l' ∧ l.Advances l' := by
  rcases c.builds_cases with hbuilds | ⟨d, rfl | rfl⟩ | ⟨d, rfl⟩ | rfl | ⟨feed, rfl⟩
  · have hconcluded := concluded_execute (s := s) hbuilds
    generalize (s.execute c).1 = r, (s.execute c).2 = t at hconcluded
    cases hconcluded with
    | refused e ids => exact ⟨l, hl, .inl ⟨rfl, rfl⟩⟩
    | committed next reply ids flag before =>
      obtain rfl := Option.some.inj (hl.symm.trans before)
      exact ⟨_, rfl, l.advances_committed next⟩
  · exact absurd trivial hc
  · exact absurd trivial hc
  · exact ⟨{ l with snapshot := d, repaired := false }, by simp [execute, markSaved, settle, hl],
      .inl ⟨rfl, rfl⟩⟩
  · exact advances_restore hl
  · exact advances_applyCatalog feed hl

theorem unloaded_execute (hc : ¬c.Installs) (hl : s.loaded = none) :
    (s.execute c).2.loaded = none := by
  rcases c.builds_cases with hbuilds | ⟨d, rfl | rfl⟩ | ⟨d, rfl⟩ | rfl | ⟨feed, rfl⟩
  · have hconcluded := concluded_execute (s := s) hbuilds
    generalize (s.execute c).1 = r, (s.execute c).2 = t at hconcluded
    cases hconcluded with
    | refused e ids => exact hl
    | committed next reply ids flag before => cases hl.symm.trans before
  · exact absurd trivial hc
  · exact absurd trivial hc
  · simp [execute, markSaved, settle, hl]
  · simp [execute, restore, settle, hl]
  · exact applyCatalog_unloaded feed hl

theorem revision_installs (hc : c.Installs) :
    (s.execute c).2.revision = some ((s.revision.map (· + 1)).getD 0) := by
  cases c with
  | load d | replace d => rfl
  | _ => cases hc

theorem precedes_execute (c : StoreCommand) (hl : s.loaded = some l) :
    ∃ l', (s.execute c).2.loaded = some l' ∧ l.Precedes l' := by
  by_cases hc : c.Installs
  · have hrevision := revision_installs (s := s) hc
    obtain ⟨l', hl', hnext⟩ := Option.map_eq_some_iff.mp hrevision
    exact ⟨l', hl', .of_succ (by simpa [revision, hl] using hnext)⟩
  · obtain ⟨l', hl', hadvances⟩ := advances_execute hc hl
    exact ⟨l', hl', hadvances.precedes⟩

-- ---------------------------------------------------------------------------
-- Runs
-- ---------------------------------------------------------------------------

theorem precedes_run (commands : List StoreCommand) (hl : s.loaded = some l) :
    ∃ l', (s.run commands).loaded = some l' ∧ l.Precedes l' := by
  induction commands generalizing s l with
  | nil => exact ⟨l, hl, .refl l⟩
  | cons c commands ih =>
    obtain ⟨next, hnext, hstep⟩ := precedes_execute c hl
    obtain ⟨l', hl', hrest⟩ := ih hnext
    exact ⟨l', hl', hstep.trans hrest⟩

theorem precedes_take (start : Store) (commands : List StoreCommand) {m n : Nat} (h : m ≤ n)
    (hl : (start.run (commands.take m)).loaded = some l) :
    ∃ l', (start.run (commands.take n)).loaded = some l' ∧ l.Precedes l' := by
  obtain ⟨k, rfl⟩ := Nat.exists_eq_add_of_le h
  have hrun : start.run (commands.take (m + k)) =
      (start.run (commands.take m)).run ((commands.drop m).take k) := by
    simp [run, List.take_add]
  exact hrun ▸ precedes_run _ hl

theorem get_eq_of_revision_eq (start : Store) (commands : List StoreCommand) {m n : Nat}
    (h : m ≤ n)
    (hrevision : (start.run (commands.take m)).revision = (start.run (commands.take n)).revision) :
    (start.run (commands.take m)).get = (start.run (commands.take n)).get := by
  cases hl : (start.run (commands.take m)).loaded with
  | none =>
    have hlater : (start.run (commands.take n)).loaded = none := by
      simpa [revision, hl] using hrevision.symm
    simp [get, hl, hlater]
  | some l =>
    obtain ⟨l', hl', hprecedes⟩ := precedes_take start commands h hl
    simp only [revision, hl, hl', Option.map_some, Option.some.injEq] at hrevision
    simp [get, hl, hl', hprecedes.2 hrevision]

/-- Along any run the revision never goes down, and two states of one revision have one current
document. What a command refuses changes nothing but how many ids were drawn: neither document,
nor the revision, the flags or the catalogs. A document of the host raises the revision by one,
whatever it is; every other command by one if it changes the current document and not at all if it
does not, and none of those loads a store. -/
theorem run_revisions (start : Store) (commands : List StoreCommand) :
    (∀ m n r, m ≤ n → (start.run (commands.take m)).revision = some r →
      ∃ r', (start.run (commands.take n)).revision = some r' ∧ r ≤ r') ∧
    (∀ m n, (start.run (commands.take m)).revision = (start.run (commands.take n)).revision →
      (start.run (commands.take m)).get = (start.run (commands.take n)).get) ∧
    ∀ n c, commands[n]? = some c →
      let s := start.run (commands.take n)
      let t := start.run (commands.take (n + 1))
      (∀ e, (s.execute c).1 = .error e → t = { s with ids := t.ids }) ∧
      (c.Installs → t.revision = some ((s.revision.map (· + 1)).getD 0)) ∧
      (¬c.Installs → s.loaded = none → t.loaded = none) ∧
      (¬c.Installs → ∀ l, s.loaded = some l → ∃ l', t.loaded = some l' ∧ l.Advances l') := by
  refine ⟨fun m n r hmn hr => ?_, fun m n hrevision => ?_, ?_⟩
  · obtain ⟨l, hl, rfl⟩ := Option.map_eq_some_iff.mp hr
    obtain ⟨l', hl', hprecedes⟩ := precedes_take start commands hmn hl
    exact ⟨l'.revision, by simp [revision, hl'], hprecedes.1⟩
  · rcases Nat.le_total m n with hmn | hnm
    · exact get_eq_of_revision_eq start commands hmn hrevision
    · exact (get_eq_of_revision_eq start commands hnm hrevision.symm).symm
  · intro n c hc s t
    have ht : t = (s.execute c).2 := by simp [t, s, run, List.take_add_one, hc]
    rw [ht]
    exact ⟨fun e => refused_execute, revision_installs, unloaded_execute,
      fun hc l => advances_execute hc⟩

/-- There is no collection to delete, which takes neither the revision nor the document back or
forth; the document that is brought in again does take the revision on. -/
theorem run_revisions_nothing_to_delete :
    let start : Store := { ids := ⟨fun _ => "", 0⟩ }
    let commands : List StoreCommand := [.load {}, .deleteCollection "fjords", .replace {}]
    (start.run (commands.take 2)).get = (start.run (commands.take 1)).get ∧
      (start.run (commands.take 2)).revision = some 0 ∧
      (start.run (commands.take 3)).revision = some 1 := by
  intro start commands
  obtain ⟨-, same, steps⟩ := run_revisions start commands
  exact ⟨same 2 1 rfl, rfl, (steps 2 _ rfl).2.1 trivial⟩

end Store

end ShellSettings
