import ShellSettings.Proofs.Store.Creation
import ShellSettings.Proofs.Store.PatchAgain

/-!
# What asks for a restart

A patch that goes through compares the whole document before with the whole document
after it, both as they are written, so it matters only whether they differ at a listed
path and not what was patched to make them so (`Store.restartRequired_execute`).
Nothing else touches the flag, and nothing takes it back.
-/

namespace ShellSettings

namespace RestartPolicy

variable {r : RestartPolicy} {texts : List String} {p q : Path} {v w : Json}

theorem mem_add : p ∈ (r.add q).paths ↔ p ∈ r.paths ∨ p = q := by
  unfold add
  split
  · rename_i hq
    exact ⟨.inl, fun h => h.elim id fun hp => hp ▸ hq⟩
  · simp

theorem mem_of_withPaths (h : withPaths texts = .ok r) :
    p ∈ r.paths ↔ p ∈ builtIn.paths ∨ ∃ text ∈ texts, Path.parse text = .ok p := by
  unfold withPaths at h
  generalize builtIn = start at *
  induction texts generalizing start with
  | nil =>
    cases h
    simp
  | cons text texts ih =>
    obtain ⟨added, hadded, h⟩ := bind_eq_ok h
    obtain ⟨parsed, hparsed, hadded⟩ := bind_eq_ok hadded
    cases hadded
    rw [ih _ h, mem_add]
    simp [hparsed, or_assoc, @eq_comm _ p]

theorem isSome_changedPath :
    (r.changedPath v w).isSome = true ↔ ∃ p ∈ r.paths, sameAt p v w = false := by
  simp [changedPath, List.find?_isSome]

end RestartPolicy

def StoreCommand.IsPatch : StoreCommand → Prop
  | .patch _ _ | .patchAt _ _ => True
  | _ => False

namespace Store

variable {s t : Store} {d : Document} {c : StoreCommand} {operation : String}

-- ---------------------------------------------------------------------------
-- What leaves the flag alone
-- ---------------------------------------------------------------------------

structure KeepsFlag (s t : Store) : Prop where
  flag : t.restartRequired = s.restartRequired
  policy : t.policy = s.policy

theorem KeepsFlag.refl : s.KeepsFlag s := ⟨rfl, rfl⟩

theorem KeepsFlag.trans {u : Store} (h : s.KeepsFlag t) (h' : t.KeepsFlag u) : s.KeepsFlag u :=
  ⟨h'.flag.trans h.flag, h'.policy.trans h.policy⟩

theorem keepsFlag_install (d : Document) : s.KeepsFlag (s.install d).1 := ⟨rfl, rfl⟩

theorem keepsFlag_commit {ids : IdSource} (h : { s with ids }.commit operation d = .ok t) :
    s.KeepsFlag t := by
  obtain ⟨-, l, -, rfl⟩ := commit_eq_ok.mp h
  exact ⟨rfl, rfl⟩

theorem keepsFlag_markSaved (h : s.markSaved d = .ok t) : s.KeepsFlag t := by
  unfold markSaved at h
  split at h
  · cases h
  · cases h
    exact ⟨rfl, rfl⟩

theorem keepsFlag_restore (h : s.restore = .ok t) : s.KeepsFlag t := by
  unfold restore at h
  repeat' split at h
  all_goals
    cases h
    try exact ⟨rfl, rfl⟩

theorem keepsFlag_applyCatalog (feed : Feed) : s.KeepsFlag (s.applyCatalog feed).1 := by
  unfold applyCatalog
  dsimp only
  split <;> exact ⟨rfl, rfl⟩

theorem keepsFlag_settle {r : Except StoreError Store} (h : ∀ t, r = .ok t → s.KeepsFlag t) :
    s.KeepsFlag (s.settle r).2 := by
  cases r with
  | error e => exact .refl
  | ok t => exact h t rfl

theorem keepsFlag_create {taken : String → Bool} {scope : String} {build : String → Document} :
    s.KeepsFlag (s.create taken scope operation build).2 := by
  unfold create
  split
  · exact ⟨rfl, rfl⟩
  · split
    · exact ⟨rfl, rfl⟩
    · exact keepsFlag_commit (by assumption)

theorem keepsFlag_createInstance (widget : String) : s.KeepsFlag (s.createInstance widget).2 := by
  cases hl : s.loaded with
  | none =>
    simp only [createInstance, get, hl]
    exact .refl
  | some l =>
    rw [createInstance_eq hl]
    exact keepsFlag_create

theorem keepsFlag_createCollection (name : String) (resources : List String) :
    s.KeepsFlag (s.createCollection name resources).2 := by
  cases hl : s.loaded with
  | none =>
    simp only [createCollection, get, hl]
    exact .refl
  | some l =>
    rw [createCollection_eq hl]
    exact keepsFlag_create

theorem keepsFlag_execute (hc : ¬ c.IsPatch) : s.KeepsFlag (s.execute c).2 := by
  cases c with
  | patch | patchAt => exact absurd trivial hc
  | load d | replace d => exact keepsFlag_install d
  | markSaved d => exact keepsFlag_settle fun _ => keepsFlag_markSaved
  | restore => exact keepsFlag_settle fun _ => keepsFlag_restore
  | createInstance widget => exact keepsFlag_createInstance widget
  | createCollection name resources => exact keepsFlag_createCollection name resources
  | applyCatalog feed => exact keepsFlag_applyCatalog feed
  | deleteInstance widget id =>
    refine keepsFlag_settle fun t ht => ?_
    obtain ⟨d, -, ht⟩ := bind_eq_ok ht
    split at ht
    · cases ht
    · split at ht
      · exact keepsFlag_commit ht
      · cases ht
  | setResources id resources =>
    refine keepsFlag_settle fun t ht => ?_
    obtain ⟨d, -, ht⟩ := bind_eq_ok ht
    split at ht
    · exact keepsFlag_commit ht
    · cases ht
  | setWallpaper slot id =>
    refine keepsFlag_settle fun t ht => ?_
    obtain ⟨d, -, ht⟩ := bind_eq_ok ht
    split at ht
    · cases ht
    · exact keepsFlag_commit ht
  | deleteCollection id =>
    simp only [execute]
    split
    · rename_i t cleared ht
      obtain ⟨d, -, ht⟩ := bind_eq_ok ht
      split at ht
      · cases ht
      · obtain ⟨committed, hcommit, ht⟩ := bind_eq_ok ht
        cases ht
        exact keepsFlag_commit hcommit
    · exact .refl

-- ---------------------------------------------------------------------------
-- What raises it
-- ---------------------------------------------------------------------------

/-- The documents of two stores, as they are written, differ at a path that the first one lists. -/
def ListedChange (s t : Store) : Prop :=
  ∃ before after, s.get = .ok before ∧ t.get = .ok after ∧
    ∃ p ∈ s.policy.paths, RestartPolicy.sameAt p before.toValue after.toValue = false

theorem listedChange_iff {l l' : Loaded} (hl : s.loaded = some l) (hl' : t.loaded = some l') :
    s.ListedChange t ↔
      (s.policy.changedPath l.current.toValue l'.current.toValue).isSome = true := by
  rw [RestartPolicy.isSome_changedPath, ListedChange, get_of_loaded hl, get_of_loaded hl']
  constructor
  · rintro ⟨before, after, hbefore, hafter, hdiffer⟩
    cases hbefore
    cases hafter
    exact hdiffer
  · exact fun hdiffer => ⟨_, _, rfl, rfl, hdiffer⟩

structure Raises (s : Store) (c : StoreCommand) : Prop where
  patch : c.IsPatch
  ok : ∃ reply, (s.execute c).1 = .ok reply
  change : s.ListedChange (s.execute c).2

/-- What counts is the document that is current after the patch, also where the patch is read to the
same one and nothing is committed. -/
theorem restartRequired_patchAt {p : Path} {v : Json} (h : s.patchAt p v = .ok t) :
    t.policy = s.policy ∧
      (t.restartRequired = true ↔ s.restartRequired = true ∨ s.ListedChange t) := by
  obtain ⟨l, next, hl, -, -, rfl⟩ := exists_of_patchAt h
  refine ⟨rfl, ?_⟩
  -- The policy compares with what was read, which is current now or the same as what is.
  have hcurrent : s.policy.changedPath l.current.toValue (l.current.settled next).toValue =
      s.policy.changedPath l.current.toValue
        (l.committed (l.current.settled next)).current.toValue := by
    by_cases hsame : l.current.same (l.current.settled next) = true
    · have hvalues : l.current.toValue.same (l.current.settled next).toValue = true :=
        Json.same_sorted hsame
      rw [Loaded.committed, if_pos hsame, changedPath_of_same _ hvalues,
        changedPath_of_same _ (Json.same_self _)]
    · rw [Loaded.committed, if_neg hsame]
  rw [listedChange_iff hl rfl, ← hcurrent, Bool.or_eq_true]

theorem restartRequired_settle {r : Except StoreError Store} (hc : c.IsPatch)
    (hexecute : s.execute c = s.settle r)
    (h : ∀ t, r = .ok t → t.policy = s.policy ∧
      (t.restartRequired = true ↔ s.restartRequired = true ∨ s.ListedChange t)) :
    (s.execute c).2.policy = s.policy ∧
      ((s.execute c).2.restartRequired = true ↔ s.restartRequired = true ∨ s.Raises c) := by
  cases r with
  | error e =>
    have hnot : ¬ s.Raises c := by
      rintro ⟨-, ⟨reply, hok⟩, -⟩
      rw [hexecute] at hok
      cases hok
    rw [hexecute]
    exact ⟨rfl, (or_iff_left hnot).symm⟩
  | ok t =>
    obtain ⟨hpolicy, hflag⟩ := h t rfl
    have hraises : s.Raises c ↔ s.ListedChange t := by
      constructor
      · rintro ⟨-, -, hchange⟩
        rwa [hexecute] at hchange
      · intro hchange
        exact ⟨hc, ⟨.done, by rw [hexecute]; rfl⟩, by rwa [hexecute]⟩
    rw [hexecute, hraises]
    exact ⟨hpolicy, hflag⟩

theorem restartRequired_execute (s : Store) (c : StoreCommand) :
    (s.execute c).2.policy = s.policy ∧
      ((s.execute c).2.restartRequired = true ↔ s.restartRequired = true ∨ s.Raises c) := by
  by_cases hc : c.IsPatch
  · cases c with
    | patchAt p v => exact restartRequired_settle hc rfl fun _ => restartRequired_patchAt
    | patch path v =>
      refine restartRequired_settle hc rfl fun t ht => ?_
      unfold Store.patch at ht
      split at ht
      · cases ht
      · exact restartRequired_patchAt ht
    | _ => cases hc
  · obtain ⟨hflag, hpolicy⟩ := keepsFlag_execute (s := s) hc
    have hnot : ¬ s.Raises c := fun h => hc h.patch
    rw [hflag]
    exact ⟨hpolicy, (or_iff_left hnot).symm⟩

end Store

end ShellSettings
