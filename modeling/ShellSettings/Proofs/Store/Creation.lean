import ShellSettings.Proofs.Document.InstanceLaws
import ShellSettings.Proofs.Store.Availability
import ShellSettings.Proofs.Store.Revisions

/-!
# Creations

Instances and collections get their ids from a source that promises nothing. An id that
is drawn is looked for in the place where it is to stand, so whatever the source gives, a
creation adds an entry and overwrites none, and gives up only after sixteen ids that
are all taken (`Store.creations_never_overwrite`).
-/

namespace ShellSettings

-- ---------------------------------------------------------------------------
-- Creating
-- ---------------------------------------------------------------------------

namespace Document

def withCollection (d : Document) (name : String) (resources : List String) (id : String) :
    Document :=
  { d with collections := d.collections ++ [{ id, name, resources }] }

theorem hasInstance_iff {d : Document} {widget id : String} :
    d.HasInstance widget id ↔ (d.overrides widget id).isSome = true := by
  cases h : d.widgets.get? widget <;> simp [HasInstance, overrides, Widget.hasInstance, h]

end Document

namespace Store

variable {s t : Store} {l : Loaded} {d : Document} {widget id name scope operation : String}
  {resources : List String} {taken : String → Bool} {build : String → Document}

/-- A creation draws an id that is not taken, and commits what is built with it. -/
def create (s : Store) (taken : String → Bool) (scope operation : String)
    (build : String → Document) : Except StoreError String × Store :=
  match s.ids.fresh (fun id => !taken id) with
  | (none, ids) => (.error (.idsExhausted scope), { s with ids })
  | (some id, ids) =>
    match { s with ids }.commit operation (build id) with
    | .error e => (.error e, { s with ids })
    | .ok t => (.ok id, t)

theorem createInstance_eq (hl : s.loaded = some l) (widget : String) : s.createInstance widget =
    s.create (fun id => (l.current.overrides widget id).isSome) widget "create_instance"
      (l.current.withInstance widget) := by
  have htaken : ∀ id, ((l.current.widgets.get? widget).map (·.hasInstance id)).getD false =
      (l.current.overrides widget id).isSome := by
    intro id
    cases h : l.current.widgets.get? widget <;> simp [Document.overrides, Widget.hasInstance, h]
  unfold createInstance create
  rw [get_of_loaded hl]
  simp only [htaken]
  generalize s.ids.fresh _ = drawn
  obtain ⟨_ | id, ids⟩ := drawn <;> rfl

theorem createCollection_eq (hl : s.loaded = some l) (name : String) (resources : List String) :
    s.createCollection name resources =
      s.create l.current.hasCollection "collections" "create_collection"
        (l.current.withCollection name resources) := by
  unfold createCollection create
  rw [get_of_loaded hl]
  dsimp only
  generalize s.ids.fresh _ = drawn
  obtain ⟨_ | id, ids⟩ := drawn <;> rfl

/-- How the id of a creation is drawn: the first that is not taken, if there is one among the next
sixteen. -/
structure DrawsFresh (taken : String → Prop) (exhausted : StoreError) (s : Store)
    (r : Except StoreError String × Store) : Prop where
  gives_up : r.1 = .error exhausted ↔ ∀ n < IdSource.maxAttempts, taken (s.ids.upcoming n)
  given_up : r.1 = .error exhausted → r.2 = { s with ids := s.ids.advance IdSource.maxAttempts }
  draws : ∀ id, r.1 = .ok id → ∃ n < IdSource.maxAttempts,
    id = s.ids.upcoming n ∧ ¬ taken id ∧ (∀ m < n, taken (s.ids.upcoming m)) ∧
      r.2.ids = s.ids.advance (n + 1)

theorem commit_ne_exhausted : s.commit operation d ≠ .error (.idsExhausted scope) := by
  unfold commit
  dsimp only
  repeat' split
  all_goals nofun

theorem create_cases (s : Store) (taken : String → Bool) (scope operation : String)
    (build : String → Document) :
    (s.create taken scope operation build =
        (.error (.idsExhausted scope), { s with ids := s.ids.advance IdSource.maxAttempts }) ∧
      ∀ n < IdSource.maxAttempts, taken (s.ids.upcoming n) = true) ∨
    ∃ n < IdSource.maxAttempts, taken (s.ids.upcoming n) = false ∧
      (∀ m < n, taken (s.ids.upcoming m) = true) ∧
      ((∃ e, { s with ids := s.ids.advance (n + 1) }.commit operation
            (build (s.ids.upcoming n)) = .error e ∧
          s.create taken scope operation build =
            (.error e, { s with ids := s.ids.advance (n + 1) })) ∨
        ∃ t, { s with ids := s.ids.advance (n + 1) }.commit operation
            (build (s.ids.upcoming n)) = .ok t ∧
          s.create taken scope operation build = (.ok (s.ids.upcoming n), t)) := by
  unfold create IdSource.fresh
  rcases IdSource.search_cases (fun id => !taken id) IdSource.maxAttempts s.ids with
    ⟨hsearch, htaken⟩ | ⟨n, hn, hsearch, hfree, htaken⟩
  · rw [hsearch]
    exact .inl ⟨rfl, by simpa using htaken⟩
  · rw [hsearch]
    refine .inr ⟨n, hn, by simpa using hfree, by simpa using htaken, ?_⟩
    dsimp only
    split
    · exact .inl ⟨_, by assumption, rfl⟩
    · exact .inr ⟨_, by assumption, rfl⟩

theorem drawsFresh_create (s : Store) {P : String → Prop} (htaken : ∀ id, taken id = true ↔ P id) :
    DrawsFresh P (.idsExhausted scope) s (s.create taken scope operation build) := by
  rcases create_cases s taken scope operation build with
    ⟨hr, hall⟩ | ⟨n, hn, hfree, hothers, ⟨e, hcommit, hr⟩ | ⟨t, hcommit, hr⟩⟩
  · rw [hr]
    exact ⟨iff_of_true rfl fun n hn => (htaken _).mp (hall n hn), fun _ => rfl, nofun⟩
  · -- A commit may refuse the document, but not for want of an id.
    have hne : e ≠ .idsExhausted scope := fun he => commit_ne_exhausted (he ▸ hcommit)
    rw [hr]
    refine ⟨iff_of_false (fun h => hne (Except.error.inj h)) fun hall => ?_,
      fun h => absurd (Except.error.inj h) hne, nofun⟩
    exact Bool.eq_false_iff.mp hfree ((htaken _).mpr (hall n hn))
  · obtain ⟨-, l, -, rfl⟩ := commit_eq_ok.mp hcommit
    rw [hr]
    refine ⟨iff_of_false nofun fun hall => ?_, nofun, fun id hid => ?_⟩
    · exact Bool.eq_false_iff.mp hfree ((htaken _).mpr (hall n hn))
    · cases hid
      exact ⟨n, hn, rfl, fun h => Bool.eq_false_iff.mp hfree ((htaken _).mpr h),
        fun m hm => (htaken _).mp (hothers m hm), rfl⟩

theorem create_eq_ok (h : s.create taken scope operation build = (.ok id, t)) :
    taken id = false ∧
      ∃ n, { s with ids := s.ids.advance (n + 1) }.commit operation (build id) = .ok t := by
  rcases create_cases s taken scope operation build with
    ⟨hr, -⟩ | ⟨n, -, hfree, -, ⟨e, -, hr⟩ | ⟨t', hcommit, hr⟩⟩
  · cases h.symm.trans hr
  · cases h.symm.trans hr
  · cases h.symm.trans hr
    exact ⟨hfree, n, hcommit⟩

-- ---------------------------------------------------------------------------
-- What a creation adds
-- ---------------------------------------------------------------------------

def HasInstance (s : Store) (widget id : String) : Prop :=
  ∃ d, s.get = .ok d ∧ d.HasInstance widget id

def HasCollection (s : Store) (id : String) : Prop :=
  ∃ d, s.get = .ok d ∧ d.hasCollection id = true

theorem hasInstance_iff (hl : s.loaded = some l) :
    s.HasInstance widget id ↔ (l.current.overrides widget id).isSome = true := by
  rw [HasInstance, get_of_loaded hl, ← Document.hasInstance_iff]
  constructor
  · rintro ⟨d, hd, h⟩
    cases hd
    exact h
  · exact fun h => ⟨_, rfl, h⟩

theorem hasCollection_iff (hl : s.loaded = some l) :
    s.HasCollection id ↔ l.current.hasCollection id = true := by
  rw [HasCollection, get_of_loaded hl]
  constructor
  · rintro ⟨d, hd, h⟩
    cases hd
    exact h
  · exact fun h => ⟨_, rfl, h⟩

theorem drawsFresh_unloaded {P : String → Prop} (hl : s.loaded = none)
    (htaken : ∀ id, P id → ∃ d, s.get = .ok d) :
    DrawsFresh P (.idsExhausted scope) s (.error .unloaded, s) where
  gives_up := by
    refine iff_of_false nofun fun hall => ?_
    obtain ⟨d, hd⟩ := htaken _ (hall 0 (by decide))
    simp [get, hl] at hd
  given_up := nofun
  draws := nofun

theorem drawsFresh_createInstance (s : Store) (widget : String) :
    DrawsFresh (s.HasInstance widget) (.idsExhausted widget) s (s.createInstance widget) := by
  cases hl : s.loaded with
  | none =>
    have hcreate : s.createInstance widget = (.error .unloaded, s) := by
      simp [createInstance, get, hl]
    rw [hcreate]
    exact drawsFresh_unloaded hl fun id h => h.imp fun d => And.left
  | some l =>
    rw [createInstance_eq hl]
    exact drawsFresh_create s fun id => (hasInstance_iff hl).symm

theorem drawsFresh_createCollection (s : Store) (name : String) (resources : List String) :
    DrawsFresh s.HasCollection (.idsExhausted "collections") s
      (s.createCollection name resources) := by
  cases hl : s.loaded with
  | none =>
    have hcreate : s.createCollection name resources = (.error .unloaded, s) := by
      simp [createCollection, get, hl]
    rw [hcreate]
    exact drawsFresh_unloaded hl fun id h => h.imp fun d => And.left
  | some l =>
    rw [createCollection_eq hl]
    exact drawsFresh_create s fun id => (hasCollection_iff hl).symm

theorem createInstance_eq_ok (hl : s.loaded = some l)
    (h : s.createInstance widget = (.ok id, t)) :
    l.current.overrides widget id = none ∧
      (l.current.withInstance widget id).dangling s.catalog = [] ∧
      ∃ n, t = { s with
        ids := s.ids.advance (n + 1)
        loaded := some { l with
          current := (l.current.withInstance widget id).normalize
          revision := l.revision + 1 } } := by
  rw [createInstance_eq hl] at h
  obtain ⟨hfree, n, hcommit⟩ := create_eq_ok h
  have hnone : l.current.overrides widget id = none := by simpa using hfree
  obtain ⟨hdangling, l', hl', rfl⟩ := commit_eq_ok.mp hcommit
  obtain rfl : l = l' := Option.some.inj (hl.symm.trans hl')
  rw [Loaded.committed, if_neg (by simp [Document.same_withInstance hnone])]
  exact ⟨hnone, hdangling, n, rfl⟩

theorem createCollection_eq_ok (hl : s.loaded = some l)
    (h : s.createCollection name resources = (.ok id, t)) :
    ∃ n, t = { s with
      ids := s.ids.advance (n + 1)
      loaded := some { l with
        current := (l.current.withCollection name resources id).normalize
        revision := l.revision + 1 } } := by
  rw [createCollection_eq hl] at h
  obtain ⟨-, n, hcommit⟩ := create_eq_ok h
  obtain ⟨-, l', hl', rfl⟩ := commit_eq_ok.mp hcommit
  obtain rfl : l = l' := Option.some.inj (hl.symm.trans hl')
  -- One collection more is never taken for the same document.
  have hdiffer :
      ¬ l.current.same (l.current.withCollection name resources id).normalize = true := by
    intro hsame
    have hlength := congrArg List.length (Document.collections_of_same hsame)
    simp [Document.withCollection, Document.normalize] at hlength
  rw [Loaded.committed, if_neg hdiffer]
  exact ⟨n, rfl⟩

theorem get_createInstance (h : s.createInstance widget = (.ok id, t)) :
    ∃ before after, s.get = .ok before ∧ t.get = .ok after ∧
      after.collections = before.collections ∧
      ∀ w i, after.overrides w i =
        if w = widget ∧ i = id then some ∅ else before.overrides w i := by
  cases hl : s.loaded with
  | none => simp [createInstance, get, hl] at h
  | some l =>
    obtain ⟨-, -, n, rfl⟩ := createInstance_eq_ok hl h
    refine ⟨_, _, get_of_loaded hl, rfl, rfl, fun w i => ?_⟩
    rw [Document.overrides_normalize, Document.overrides_withInstance]

theorem get_createCollection (h : s.createCollection name resources = (.ok id, t)) :
    ∃ before after, s.get = .ok before ∧ t.get = .ok after ∧
      after.collections = before.collections ++ [({ id, name, resources } : Collection)] ∧
      ∀ w i, after.overrides w i = before.overrides w i := by
  cases hl : s.loaded with
  | none => simp [createCollection, get, hl] at h
  | some l =>
    obtain ⟨n, rfl⟩ := createCollection_eq_ok hl h
    exact ⟨_, _, get_of_loaded hl, rfl, rfl, Document.overrides_normalize⟩

end Store

-- ---------------------------------------------------------------------------
-- Runs that keep all instances
-- ---------------------------------------------------------------------------

/-- The commands that take no instance away: neither is one deleted, nor is a document patched or
another put in its place. -/
def StoreCommand.KeepsInstances : StoreCommand → Prop
  | .load _ | .replace _ | .restore | .patch _ _ | .patchAt _ _ | .deleteInstance _ _ => False
  | _ => True

namespace Store

variable {s t : Store} {l : Loaded} {d : Document} {widget id operation : String}
  {c : StoreCommand}

theorem HasInstance.loaded (h : s.HasInstance widget id) : ∃ l, s.loaded = some l := by
  obtain ⟨d, hget, -⟩ := h
  obtain ⟨l, hl, -⟩ := get_eq_ok hget
  exact ⟨l, hl⟩

theorem HasInstance.of_get {e : Document} (h : s.HasInstance widget id) (hbefore : s.get = .ok d)
    (hafter : t.get = .ok e)
    (hkept : (d.overrides widget id).isSome = true → (e.overrides widget id).isSome = true) :
    t.HasInstance widget id := by
  obtain ⟨l, hl, rfl⟩ := get_eq_ok hbefore
  obtain ⟨l', hl', rfl⟩ := get_eq_ok hafter
  exact (hasInstance_iff hl').mpr (hkept ((hasInstance_iff hl).mp h))

theorem HasInstance.settle {r : Except StoreError Store} (h : s.HasInstance widget id)
    (hr : ∀ t, r = .ok t → t.HasInstance widget id) : (s.settle r).2.HasInstance widget id := by
  cases r with
  | error e => exact h
  | ok t => exact hr t rfl

theorem HasInstance.commit {next : Document} (h : s.HasInstance widget id) (hget : s.get = .ok d)
    (hcommit : s.commit operation next = .ok t) (hwidgets : next.widgets = d.widgets) :
    t.HasInstance widget id := by
  obtain ⟨l, hl, rfl⟩ := get_eq_ok hget
  obtain ⟨-, l', hl', rfl⟩ := commit_eq_ok.mp hcommit
  obtain rfl : l = l' := Option.some.inj (hl.symm.trans hl')
  refine h.of_get hget rfl fun hthere => ?_
  rw [Loaded.committed]
  split
  · exact hthere
  · -- Empty containers are dropped from what is committed, and no instance with them.
    change (next.normalize.overrides widget id).isSome = true
    rw [Document.overrides_normalize, Document.overrides, hwidgets]
    exact hthere

theorem HasInstance.createInstance (h : s.HasInstance widget id) (other : String) :
    (s.createInstance other).2.HasInstance widget id := by
  have hconcluded := concluded_createInstance (s := s) other
  rcases hr : s.createInstance other with ⟨e | i, t⟩
  · rw [hr] at hconcluded
    rw [hconcluded.refused_eq]
    exact h
  · obtain ⟨before, after, hbefore, hafter, -, hoverrides⟩ := get_createInstance hr
    refine h.of_get hbefore hafter fun hthere => ?_
    rw [hoverrides]
    split
    · rfl
    · exact hthere

theorem HasInstance.createCollection (h : s.HasInstance widget id) (name : String)
    (resources : List String) : (s.createCollection name resources).2.HasInstance widget id := by
  have hconcluded := concluded_createCollection (s := s) name resources
  rcases hr : s.createCollection name resources with ⟨e | i, t⟩
  · rw [hr] at hconcluded
    rw [hconcluded.refused_eq]
    exact h
  · obtain ⟨before, after, hbefore, hafter, -, hoverrides⟩ := get_createCollection hr
    refine h.of_get hbefore hafter fun hthere => ?_
    rwa [hoverrides]

theorem HasInstance.applyCatalog (h : s.HasInstance widget id) (feed : Feed) :
    (s.applyCatalog feed).1.HasInstance widget id := by
  obtain ⟨l, hl⟩ := h.loaded
  obtain ⟨revision, repaired, hpruned, -⟩ := applyCatalog_loaded feed hl
  refine h.of_get (get_of_loaded hl) (get_of_loaded hpruned) fun hthere => ?_
  cases feed.kind <;> exact hthere

theorem HasInstance.execute (h : s.HasInstance widget id) (hc : c.KeepsInstances) :
    (s.execute c).2.HasInstance widget id := by
  cases c with
  | load | replace | restore | patch | patchAt | deleteInstance => cases hc
  | markSaved d =>
    refine h.settle fun t ht => ?_
    obtain ⟨l, hl⟩ := h.loaded
    simp only [Store.markSaved, hl, Except.ok.injEq] at ht
    subst ht
    exact h.of_get (get_of_loaded hl) rfl fun hthere => hthere
  | createInstance w => exact h.createInstance w
  | createCollection name rs => exact h.createCollection name rs
  | setResources i rs =>
    refine h.settle fun t ht => ?_
    obtain ⟨d, hget, ht⟩ := bind_eq_ok ht
    split at ht
    · exact h.commit hget ht rfl
    · cases ht
  | deleteCollection i =>
    simp only [Store.execute]
    split
    · rename_i t rs ht
      obtain ⟨d, hget, ht⟩ := bind_eq_ok ht
      split at ht
      · cases ht
      · rename_i next _ hnext
        obtain ⟨t', hcommit, ht⟩ := bind_eq_ok ht
        cases ht
        -- Only slots and collections are touched.
        refine h.commit hget hcommit ?_
        simp only [Document.deleteCollection?] at hnext
        split at hnext
        · cases hnext
          rfl
        · cases hnext
    · exact h
  | setWallpaper slot i =>
    refine h.settle fun t ht => ?_
    obtain ⟨d, hget, ht⟩ := bind_eq_ok ht
    split at ht
    · cases ht
    · refine h.commit hget ht ?_
      cases slot <;> rfl
  | applyCatalog feed => exact h.applyCatalog feed

def created (s : Store) (widget : String) : StoreCommand → Option String
  | .createInstance w => if w = widget then (s.createInstance w).1.toOption else none
  | _ => none

def createdIds (s : Store) (widget : String) : List StoreCommand → List String
  | [] => []
  | c :: commands => (s.created widget c).toList ++ (s.execute c).2.createdIds widget commands

theorem created_eq_some (h : s.created widget c = some id) :
    ∃ t, c = .createInstance widget ∧ s.createInstance widget = (.ok id, t) := by
  cases c with
  | createInstance w =>
    simp only [created] at h
    split at h
    · subst w
      rcases hr : s.createInstance widget with ⟨e | i, t⟩
      · rw [hr] at h
        cases h
      · rw [hr] at h
        cases h
        exact ⟨t, rfl, rfl⟩
    · cases h
  | _ => cases h

theorem created_fresh (h : s.created widget c = some id) :
    ¬ s.HasInstance widget id ∧ (s.execute c).2.HasInstance widget id := by
  obtain ⟨t, rfl, hr⟩ := created_eq_some h
  have hdraws := (drawsFresh_createInstance s widget).draws id (by rw [hr])
  obtain ⟨before, after, -, hafter, -, hoverrides⟩ := get_createInstance hr
  obtain ⟨l, hl, rfl⟩ := get_eq_ok hafter
  refine ⟨hdraws.choose_spec.2.2.1, ?_⟩
  have ht : (s.execute (.createInstance widget)).2 = t := by simp only [execute, hr]
  rw [ht]
  exact (hasInstance_iff hl).mpr (by simp [hoverrides])

/-- What a run creates was not there at its start: whatever was stays, and would be taken. -/
theorem not_hasInstance_of_mem_createdIds {commands : List StoreCommand}
    (hkeep : ∀ c ∈ commands, c.KeepsInstances) (h : id ∈ s.createdIds widget commands) :
    ¬ s.HasInstance widget id := by
  induction commands generalizing s with
  | nil => cases h
  | cons c commands ih =>
    obtain ⟨hc, hkeep⟩ := List.forall_mem_cons.mp hkeep
    rcases List.mem_append.mp h with h | h
    · exact (created_fresh (Option.mem_toList.mp h)).1
    · exact fun hthere => ih hkeep h (hthere.execute hc)

theorem nodup_createdIds {commands : List StoreCommand} (widget : String)
    (hkeep : ∀ c ∈ commands, c.KeepsInstances) : (s.createdIds widget commands).Nodup := by
  induction commands generalizing s with
  | nil => exact List.nodup_nil
  | cons c commands ih =>
    obtain ⟨-, hkeep⟩ := List.forall_mem_cons.mp hkeep
    cases hcreated : s.created widget c with
    | none => simpa [createdIds, hcreated] using ih hkeep
    | some id =>
      -- The instance is there from now on, so its id is not given again.
      have hfresh : id ∉ (s.execute c).2.createdIds widget commands := fun hmem =>
        not_hasInstance_of_mem_createdIds hkeep hmem (created_fresh hcreated).2
      simpa [createdIds, hcreated] using ⟨hfresh, ih hkeep⟩

/-- In whatever store and from whatever source, a creation draws ids up to the first that is not
taken. For want of one it fails exactly if the next sixteen are taken, and then it has drawn those
and done nothing else. All instances and collections stay as they are, and the new one joins them.
While nothing is deleted, patched, restored or installed, no two instances of a widget are given one
id. -/
theorem creations_never_overwrite (s : Store) :
    (∀ widget, DrawsFresh (s.HasInstance widget) (.idsExhausted widget) s
      (s.createInstance widget)) ∧
    (∀ name resources, DrawsFresh s.HasCollection (.idsExhausted "collections") s
      (s.createCollection name resources)) ∧
    (∀ widget id t, s.createInstance widget = (.ok id, t) →
      ∃ before after, s.get = .ok before ∧ t.get = .ok after ∧
        after.collections = before.collections ∧
        ∀ w i, after.overrides w i =
          if w = widget ∧ i = id then some ∅ else before.overrides w i) ∧
    (∀ name resources id t, s.createCollection name resources = (.ok id, t) →
      ∃ before after, s.get = .ok before ∧ t.get = .ok after ∧
        after.collections = before.collections ++ [({ id, name, resources } : Collection)] ∧
        ∀ w i, after.overrides w i = before.overrides w i) ∧
    ∀ widget commands, (∀ c ∈ commands, c.KeepsInstances) →
      (s.createdIds widget commands).Nodup :=
  ⟨drawsFresh_createInstance s, drawsFresh_createCollection s, fun _ _ _ => get_createInstance,
    fun _ _ _ _ => get_createCollection, fun widget _ => nodup_createdIds widget⟩

/-- A source gives one id seventeen times: the widget gets it once, then no other, and another one
after that. -/
theorem creations_never_overwrite_repeated_id :
    let s : Store := (Store.install { ids := ⟨fun n => if n < 17 then "a" else "b", 0⟩ } {}).1
    let t := (s.createInstance "dock").2
    t.HasInstance "dock" "a" ∧
      (t.createInstance "dock").1 = .error (.idsExhausted "dock") ∧
      (t.createInstance "dock").2 = { t with ids := t.ids.advance 16 } ∧
      s.createdIds "dock" (.replicate 3 (.createInstance "dock")) = ["a", "b"] ∧
      ["a", "b"].Nodup := by
  intro s t
  have hthere : t.HasInstance "dock" "a" := ⟨_, rfl, _, rfl, rfl⟩
  obtain ⟨hdraws, -, -, -, -⟩ := creations_never_overwrite t
  obtain ⟨-, -, -, -, hdistinct⟩ := creations_never_overwrite s
  have hexhausted : (t.createInstance "dock").1 = .error (.idsExhausted "dock") := by
    refine (hdraws "dock").gives_up.mpr fun n hn => ?_
    have hid : t.ids.upcoming n = "a" := if_pos (by change 1 + n < 17; change n < 16 at hn; omega)
    rwa [hid]
  have hids : s.createdIds "dock" (.replicate 3 (.createInstance "dock")) = ["a", "b"] := by
    decide +kernel
  refine ⟨hthere, hexhausted, (hdraws "dock").given_up hexhausted, hids, ?_⟩
  rw [← hids]
  refine hdistinct "dock" _ fun c hc => ?_
  obtain rfl := List.eq_of_mem_replicate hc
  trivial

end Store

end ShellSettings
