import ShellSettings.Proofs.Document.EditLaws
import ShellSettings.Proofs.Sync.Run
import ShellSettings.Store.Command

/-!
# What an edit does to a store

Every edit is one of four things (`Store.Edited`): it leaves both documents
alone, commits a document in which nothing dangles, goes back to the snapshot, or
publishes a catalog. What a store keeps through each of these it keeps through
every edit.
-/

namespace ShellSettings

/-- What is loaded once a document is committed: one that is the same as the current one changes
nothing. -/
def Loaded.committed (l : Loaded) (d : Document) : Loaded :=
  if l.current.same d then l else { l with current := d, revision := l.revision + 1 }

namespace Store

inductive Edited (s t : Store) : Prop
  | same (loaded : t.loaded = s.loaded) (catalog : t.catalog = s.catalog)
  | committed {l : Loaded} (next : Document) (before : s.loaded = some l)
    (loaded : t.loaded = some { l with current := next, revision := l.revision + 1 })
    (catalog : t.catalog = s.catalog) (normalized : next.Normalized)
    (dangling : next.dangling s.catalog = [])
    (wellFormed : l.current.WellFormed → next.WellFormed)
  | restored {l : Loaded} (before : s.loaded = some l)
    (loaded : t.loaded = some { l with current := l.snapshot, revision := l.revision + 1 })
    (catalog : t.catalog = s.catalog)
  | published (feed : Feed) (eq : t = (s.applyCatalog feed).1)

variable {s t : Store} {l : Loaded} {d : Document} {operation : String}

theorem Edited.refl : s.Edited s := .same rfl rfl

theorem get_eq_ok (h : s.get = .ok d) : ∃ l, s.loaded = some l ∧ l.current = d := by
  unfold get at h
  split at h
  · cases h
  · rename_i l hl
    exact ⟨l, hl, Except.ok.inj h⟩

/-- A commit goes through if nothing dangles. It reads and changes what is loaded and nothing
else. -/
theorem commit_eq_ok : s.commit operation d = .ok t ↔
    d.normalize.dangling s.catalog = [] ∧ ∃ l, s.loaded = some l ∧
      t = { s with loaded := some (l.committed d.normalize) } := by
  unfold commit
  cases hdangling : d.normalize.dangling s.catalog with
  | cons r rs => simp [hdangling]
  | nil =>
    cases hl : s.loaded with
    | none => simp [hdangling]
    | some l =>
      have hself : s = { s with loaded := some l } := by rw [← hl]
      by_cases hsame : l.current.same d.normalize = true
      · simpa [hdangling, hsame, Loaded.committed, ← hself] using eq_comm
      · simpa [hdangling, hsame, Loaded.committed] using eq_comm

theorem edited_commit {ids : IdSource} {flag : Bool} (hl : s.loaded = some l)
    (hd : l.current.WellFormed → d.WellFormed)
    (h : { s with ids }.commit operation d = .ok t) :
    s.Edited { t with restartRequired := flag } := by
  obtain ⟨hdangling, l', hl', rfl⟩ := commit_eq_ok.mp h
  obtain rfl : l = l' := Option.some.inj (hl.symm.trans hl')
  by_cases hsame : l.current.same d.normalize = true
  · exact .same (by simpa [Loaded.committed, hsame] using hl.symm) rfl
  · exact .committed _ hl (by simp [Loaded.committed, hsame]) rfl
      (Document.normalized_normalize d) hdangling fun hw => (hd hw).normalize

theorem edited_settle {r : Except StoreError Store} (h : ∀ t, r = .ok t → s.Edited t) :
    s.Edited (s.settle r).2 := by
  cases r with
  | error e => exact .refl
  | ok t => exact h t rfl

-- ---------------------------------------------------------------------------
-- Documents of the host and catalogs
-- ---------------------------------------------------------------------------

theorem install_loaded (s : Store) (d : Document) :
    (s.install d).1.loaded = some {
      current := (d.normalize.repair s.catalog).1
      snapshot := (d.normalize.repair s.catalog).1
      revision := (s.revision.map (· + 1)).getD 0
      repaired := !(d.normalize.repair s.catalog).2.isEmpty } := rfl

/-- A catalog prunes both documents. What it takes from the snapshot the host still has. -/
theorem applyCatalog_loaded (feed : Feed) (hl : s.loaded = some l) :
    ∃ revision repaired, (s.applyCatalog feed).1.loaded = some {
        current := l.current.retain feed.kind feed.ids.contains
        snapshot := l.snapshot.retain feed.kind feed.ids.contains
        revision, repaired } ∧
      (repaired = true ∨ repaired = l.repaired ∧
        l.snapshot.retain feed.kind feed.ids.contains = l.snapshot) := by
  simp only [applyCatalog, hl, Document.prune, List.isEmpty_iff]
  by_cases hc : l.current.unlisted feed.kind feed.ids.contains = [] <;>
    by_cases hs : l.snapshot.unlisted feed.kind feed.ids.contains = []
  · exact ⟨l.revision, l.repaired, by simp [hc, hs, Document.retain_eq_self],
      .inr ⟨rfl, Document.retain_eq_self hs⟩⟩
  · exact ⟨l.revision, true, by simp [hc, hs, Document.retain_eq_self], .inl rfl⟩
  · exact ⟨l.revision + 1, l.repaired, by simp [hc, hs, Document.retain_eq_self],
      .inr ⟨rfl, Document.retain_eq_self hs⟩⟩
  · exact ⟨l.revision + 1, true, by simp [hc, hs], .inl rfl⟩

theorem applyCatalog_unloaded (feed : Feed) (hl : s.loaded = none) :
    (s.applyCatalog feed).1.loaded = none := by
  simp [applyCatalog, hl]

theorem applyCatalog_catalog (feed : Feed) :
    (s.applyCatalog feed).1.catalog = s.catalog.publish feed.kind feed.ids := by
  cases hl : s.loaded <;> simp [applyCatalog, hl]

-- ---------------------------------------------------------------------------
-- Every edit
-- ---------------------------------------------------------------------------

theorem edited_restore (h : s.restore = .ok t) : s.Edited t := by
  unfold restore at h
  split at h
  · cases h
  · rename_i l hl
    split at h
    · cases h
      exact .restored hl rfl rfl
    · cases h
      exact .refl

theorem restore_of_dirty (hl : s.loaded = some l) (hdirty : s.isDirty = true) :
    ∃ restored, s.restore = .ok restored ∧ restored.get = .ok l.snapshot := by
  simp only [isDirty, hl] at hdirty
  simp only [restore, hl, hdirty, if_true]
  exact ⟨_, rfl, rfl⟩

theorem wellFormed_of_patched {next : Document} {p : Path} {v : Json}
    (h : patched d p v = .ok next) : next.WellFormed := by
  simp only [patched] at h
  repeat' split at h
  all_goals first
    | cases h; done
    | cases h; exact Document.wellFormed_of_read (by assumption)

theorem edited_patchAt {p : Path} {v : Json} (h : s.patchAt p v = .ok t) : s.Edited t := by
  obtain ⟨before, hbefore, h⟩ := bind_eq_ok h
  obtain ⟨next, hnext, h⟩ := bind_eq_ok h
  obtain ⟨committed, hcommit, h⟩ := bind_eq_ok h
  obtain ⟨l, hl, rfl⟩ := get_eq_ok hbefore
  split at h
  all_goals
    cases h
    refine edited_commit hl (fun _ => ?_) hcommit
    exact (wellFormed_of_patched hnext).clearSlots.normalize

theorem edited_patch {path : String} {v : Json} (h : s.patch path v = .ok t) : s.Edited t := by
  unfold patch at h
  split at h
  · cases h
  · exact edited_patchAt h

theorem edited_createInstance (widget : String) : s.Edited (s.createInstance widget).2 := by
  unfold createInstance
  split
  · exact .refl
  · rename_i d hget
    obtain ⟨l, hl, rfl⟩ := get_eq_ok hget
    dsimp only
    split
    · exact .same rfl rfl
    · rename_i id _
      split
      · exact .same rfl rfl
      · rename_i t ht
        refine edited_commit hl (fun hw => hw.withWidgets ?_) ht
        refine hw.parts.1.change Widget.wellFormed_default fun w hw => hw.withInstances ?_
        intro m hm
        cases hm
        refine Map.All.insert ?_ Map.all_empty
        cases h : w.instances with
        | none => exact Map.all_empty
        | some m => exact (Widget.wellFormed_iff.mp hw).1 m h

theorem edited_deleteInstance {widget id : String} (h : s.deleteInstance widget id = .ok t) :
    s.Edited t := by
  obtain ⟨d, hget, h⟩ := bind_eq_ok h
  obtain ⟨l, hl, rfl⟩ := get_eq_ok hget
  split at h
  · cases h
  · rename_i w hw
    split at h
    · refine edited_commit hl (fun hd => hd.withWidgets (hd.parts.1.insert ?_)) h
      have hwidget := hd.parts.1.get? hw
      refine hwidget.withInstances fun m hm => ?_
      obtain ⟨m', hm', rfl⟩ := Option.map_eq_some_iff.mp hm
      exact ((Widget.wellFormed_iff.mp hwidget).1 m' hm').erase
    · cases h

theorem edited_createCollection (name : String) (resources : List String) :
    s.Edited (s.createCollection name resources).2 := by
  unfold createCollection
  split
  · exact .refl
  · rename_i d hget
    obtain ⟨l, hl, rfl⟩ := get_eq_ok hget
    dsimp only
    split
    · exact .same rfl rfl
    · split
      · exact .same rfl rfl
      · rename_i t ht
        refine edited_commit hl (fun hw => hw.withCollections ?_) ht
        refine List.forall_mem_append.mpr ⟨hw.parts.2.2.1, ?_⟩
        exact List.forall_mem_singleton.mpr (Collection.wellFormed_iff.mpr nofun)

theorem mem_changeFirst {α : Type} {p : α → Bool} {f : α → α} {xs : List α} {y : α}
    (h : y ∈ changeFirst p f xs) : ∃ x ∈ xs, y = x ∨ y = f x := by
  induction xs with
  | nil => cases h
  | cons x xs ih =>
    unfold changeFirst at h
    split at h
    · rcases List.mem_cons.mp h with rfl | h
      · exact ⟨x, List.mem_cons_self, .inr rfl⟩
      · exact ⟨y, List.mem_cons_of_mem _ h, .inl rfl⟩
    · rcases List.mem_cons.mp h with rfl | h
      · exact ⟨y, List.mem_cons_self, .inl rfl⟩
      · obtain ⟨x', hx', hy⟩ := ih h
        exact ⟨x', List.mem_cons_of_mem _ hx', hy⟩

theorem edited_setResources {id : String} {resources : List String}
    (h : s.setResources id resources = .ok t) : s.Edited t := by
  obtain ⟨d, hget, h⟩ := bind_eq_ok h
  obtain ⟨l, hl, rfl⟩ := get_eq_ok hget
  split at h
  · refine edited_commit hl (fun hd => hd.withCollections fun c hc => ?_) h
    obtain ⟨c', hc', rfl | rfl⟩ := mem_changeFirst hc
    · exact hd.parts.2.2.1 _ hc'
    · exact (hd.parts.2.2.1 _ hc').congr rfl
  · cases h

theorem edited_deleteCollection {id : String} {cleared : List Reference}
    (h : s.deleteCollection id = .ok (t, cleared)) : s.Edited t := by
  obtain ⟨d, hget, h⟩ := bind_eq_ok h
  obtain ⟨l, hl, rfl⟩ := get_eq_ok hget
  split at h
  · cases h
  · rename_i next _ hnext
    obtain ⟨committed, hcommit, h⟩ := bind_eq_ok h
    cases h
    exact edited_commit hl (fun hd => hd.deleteCollection hnext) hcommit

theorem edited_setWallpaper {slot : Slot} {id : Option String}
    (h : s.setWallpaper slot id = .ok t) : s.Edited t := by
  obtain ⟨d, hget, h⟩ := bind_eq_ok h
  obtain ⟨l, hl, rfl⟩ := get_eq_ok hget
  split at h
  · cases h
  · exact edited_commit hl (fun hd => hd.setSlot) h

theorem edited_execute {c : StoreCommand} (hc : c.IsEdit) : s.Edited (s.execute c).2 := by
  cases c with
  | load d | replace d | markSaved d => cases hc
  | restore => exact edited_settle fun _ => edited_restore
  | patch path v => exact edited_settle fun _ => edited_patch
  | patchAt p v => exact edited_settle fun _ => edited_patchAt
  | createInstance w => exact edited_createInstance w
  | deleteInstance w id => exact edited_settle fun _ => edited_deleteInstance
  | createCollection name rs => exact edited_createCollection name rs
  | setResources id rs => exact edited_settle fun _ => edited_setResources
  | deleteCollection id =>
    simp only [execute]
    split
    · exact edited_deleteCollection (by assumption)
    · exact .refl
  | setWallpaper slot id => exact edited_settle fun _ => edited_setWallpaper
  | applyCatalog feed => exact .published feed rfl

theorem Edited.loaded {l : Loaded} (he : s.Edited t) (hl : s.loaded = some l) :
    ∃ l', t.loaded = some l' := by
  cases he with
  | same loaded => exact ⟨l, loaded.trans hl⟩
  | committed _ _ loaded => exact ⟨_, loaded⟩
  | restored _ loaded => exact ⟨_, loaded⟩
  | published feed eq =>
    obtain ⟨revision, repaired, hpruned, -⟩ := applyCatalog_loaded feed hl
    exact ⟨_, eq ▸ hpruned⟩

-- ---------------------------------------------------------------------------
-- What both documents keep
-- ---------------------------------------------------------------------------

/-- It holds of both documents, if there are any, with the catalogs of the store. -/
def Both (P : Catalog → Document → Prop) (s : Store) : Prop :=
  ∀ l, s.loaded = some l → P s.catalog l.current ∧ P s.catalog l.snapshot

variable {P : Catalog → Document → Prop}

theorem both_install (h : P s.catalog (d.normalize.repair s.catalog).1) :
    (s.install d).1.Both P := by
  intro l hl
  obtain rfl := Option.some.inj (hl.symm.trans (install_loaded s d))
  exact ⟨h, h⟩

/-- An edit keeps of both documents what holds of every document that is committed and what a
catalog keeps by dropping what it does not list. -/
theorem Both.edited (h : s.Both P) (he : s.Edited t)
    (hcommitted : ∀ l next, s.loaded = some l → next.Normalized → next.dangling s.catalog = [] →
      (l.current.WellFormed → next.WellFormed) → P s.catalog next)
    (hretain : ∀ c d kind (ids : IdSet), P c d →
      P (c.publish kind ids) (d.retain kind ids.contains)) : t.Both P := by
  intro l' hl'
  cases he with
  | same loaded catalog => exact catalog ▸ h l' (loaded ▸ hl')
  | committed next before loaded catalog normalized dangling wellFormed =>
    cases loaded.symm.trans hl'
    rw [catalog]
    exact ⟨hcommitted _ next before normalized dangling wellFormed, (h _ before).2⟩
  | restored before loaded catalog =>
    cases loaded.symm.trans hl'
    rw [catalog]
    exact ⟨(h _ before).2, (h _ before).2⟩
  | published feed eq =>
    rw [eq, applyCatalog_catalog]
    cases hl : s.loaded with
    | none => simp [eq, applyCatalog_unloaded feed hl] at hl'
    | some l =>
      obtain ⟨revision, repaired, hpruned, -⟩ := applyCatalog_loaded feed hl
      cases hpruned.symm.trans (eq ▸ hl')
      exact ⟨hretain _ _ _ _ (h l hl).1, hretain _ _ _ _ (h l hl).2⟩

theorem Both.markSaved (h : s.Both P) (hd : P s.catalog d) (hs : s.markSaved d = .ok t) :
    t.Both P := by
  unfold Store.markSaved at hs
  split at hs
  · cases hs
  · rename_i l hl
    cases hs
    intro l' hl'
    cases hl'
    exact ⟨(h l hl).1, hd⟩

theorem Both.execute {c : StoreCommand} (h : s.Both P)
    (hinstalled : ∀ d, c = .load d ∨ c = .replace d → P s.catalog (d.normalize.repair s.catalog).1)
    (hsaved : ∀ d, c = .markSaved d → P s.catalog d)
    (hcommitted : ∀ l next, s.loaded = some l → next.Normalized → next.dangling s.catalog = [] →
      (l.current.WellFormed → next.WellFormed) → P s.catalog next)
    (hretain : ∀ c d kind (ids : IdSet), P c d →
      P (c.publish kind ids) (d.retain kind ids.contains)) : (s.execute c).2.Both P := by
  cases c with
  | load d => exact both_install (hinstalled d (.inl rfl))
  | replace d => exact both_install (hinstalled d (.inr rfl))
  | markSaved d =>
    simp only [Store.execute]
    cases hs : s.markSaved d with
    | error e => exact h
    | ok t => exact h.markSaved (hsaved d rfl) hs
  | restore | patch | patchAt | createInstance | deleteInstance | createCollection | setResources
  | deleteCollection | setWallpaper | applyCatalog =>
    exact h.edited (edited_execute trivial) hcommitted hretain

end Store

end ShellSettings
