import ShellSettings.Proofs.Store.EditLaws

/-!
# What a command comes to

Five commands bring a document in, take one for saved, go back to the snapshot or
publish a catalog. Every other builds a new document out of the current one. It
either is refused, and has done nothing but draw ids, or it commits the document
(`Store.concluded_execute`).
-/

namespace ShellSettings

namespace StoreCommand

/-- Whether a command puts a document of the host in the place of the current one. -/
def Installs : StoreCommand → Prop
  | .load _ | .replace _ => True
  | _ => False

/-- Whether a command builds a document out of the current one. -/
def Builds : StoreCommand → Prop
  | .load _ | .replace _ | .markSaved _ | .restore | .applyCatalog _ => False
  | _ => True

theorem builds_cases (c : StoreCommand) :
    c.Builds ∨ (∃ d, c = .load d ∨ c = .replace d) ∨ (∃ d, c = .markSaved d) ∨ c = .restore ∨
      ∃ feed, c = .applyCatalog feed := by
  cases c <;> simp [Builds]

end StoreCommand

namespace Store

variable {s t : Store} {d : Document} {operation : String}

/-- How a command that builds a document ends. -/
inductive Concluded (s : Store) : Except StoreError StoreReply → Store → Prop
  | refused (e : StoreError) (ids : IdSource) : Concluded s (.error e) { s with ids }
  -- Only a patch raises the flag.
  | committed {l : Loaded} (next : Document) (reply : StoreReply) (ids : IdSource) (flag : Bool)
    (before : s.loaded = some l) : Concluded s (.ok reply)
      { s with
        loaded := some (l.committed next), ids, restartRequired := s.restartRequired || flag }

theorem Concluded.catalog {r : Except StoreError StoreReply} (h : s.Concluded r t) :
    t.catalog = s.catalog := by cases h <;> rfl

theorem Concluded.refused_eq {e : StoreError} (h : s.Concluded (.error e) t) :
    t = { s with ids := t.ids } := by
  cases h
  rfl

theorem concluded_commit {ids : IdSource} (reply : StoreReply)
    (h : { s with ids }.commit operation d = .ok t) : s.Concluded (.ok reply) t := by
  obtain ⟨-, l, hl, rfl⟩ := commit_eq_ok.mp h
  have hconcluded := Concluded.committed (s := s) d.normalize reply ids false hl
  rwa [Bool.or_false] at hconcluded

theorem concluded_settle {r : Except StoreError Store}
    (h : ∀ t, r = .ok t → s.Concluded (.ok .done) t) :
    s.Concluded (s.settle r).1 (s.settle r).2 := by
  cases r with
  | error e => exact .refused e s.ids
  | ok t => exact h t rfl

theorem concluded_patchAt {p : Path} {v : Json} (h : s.patchAt p v = .ok t) :
    s.Concluded (.ok .done) t := by
  obtain ⟨before, -, h⟩ := bind_eq_ok h
  obtain ⟨next, -, h⟩ := bind_eq_ok h
  obtain ⟨committed, hcommit, h⟩ := bind_eq_ok h
  split at h
  · cases h
    obtain ⟨-, l, hl, rfl⟩ := commit_eq_ok.mp hcommit
    have hconcluded := Concluded.committed
      ((next.clearSlots ((before.removedCollections next).contains ·)).normalize.normalize)
      .done s.ids true hl
    rwa [Bool.or_true] at hconcluded
  · cases h
    exact concluded_commit .done hcommit

theorem concluded_patch {path : String} {v : Json} (h : s.patch path v = .ok t) :
    s.Concluded (.ok .done) t := by
  unfold patch at h
  split at h
  · cases h
  · exact concluded_patchAt h

theorem concluded_createInstance (widget : String) :
    s.Concluded ((s.createInstance widget).1.map .id) (s.createInstance widget).2 := by
  unfold createInstance
  split
  · exact .refused _ s.ids
  · dsimp only
    split
    · exact .refused _ _
    · split
      · exact .refused _ _
      · exact concluded_commit _ (by assumption)

theorem concluded_createCollection (name : String) (resources : List String) :
    s.Concluded ((s.createCollection name resources).1.map .id)
      (s.createCollection name resources).2 := by
  unfold createCollection
  split
  · exact .refused _ s.ids
  · dsimp only
    split
    · exact .refused _ _
    · split
      · exact .refused _ _
      · exact concluded_commit _ (by assumption)

theorem concluded_deleteInstance {widget id : String} (h : s.deleteInstance widget id = .ok t) :
    s.Concluded (.ok .done) t := by
  obtain ⟨d, -, h⟩ := bind_eq_ok h
  split at h
  · cases h
  · split at h
    · exact concluded_commit .done h
    · cases h

theorem concluded_setResources {id : String} {resources : List String}
    (h : s.setResources id resources = .ok t) : s.Concluded (.ok .done) t := by
  obtain ⟨d, -, h⟩ := bind_eq_ok h
  split at h
  · exact concluded_commit .done h
  · cases h

theorem concluded_deleteCollection {id : String} {cleared : List Reference}
    (h : s.deleteCollection id = .ok (t, cleared)) :
    s.Concluded (.ok (.references cleared)) t := by
  obtain ⟨d, -, h⟩ := bind_eq_ok h
  split at h
  · cases h
  · obtain ⟨committed, hcommit, h⟩ := bind_eq_ok h
    cases h
    exact concluded_commit _ hcommit

theorem concluded_setWallpaper {slot : Slot} {id : Option String}
    (h : s.setWallpaper slot id = .ok t) : s.Concluded (.ok .done) t := by
  obtain ⟨d, -, h⟩ := bind_eq_ok h
  split at h
  · cases h
  · exact concluded_commit .done h

theorem concluded_execute {c : StoreCommand} (hc : c.Builds) :
    s.Concluded (s.execute c).1 (s.execute c).2 := by
  cases c with
  | load d | replace d | markSaved d | restore | applyCatalog feed => cases hc
  | patch path v => exact concluded_settle fun _ => concluded_patch
  | patchAt p v => exact concluded_settle fun _ => concluded_patchAt
  | createInstance w => exact concluded_createInstance w
  | deleteInstance w id => exact concluded_settle fun _ => concluded_deleteInstance
  | createCollection name rs => exact concluded_createCollection name rs
  | setResources id rs => exact concluded_settle fun _ => concluded_setResources
  | deleteCollection id =>
    simp only [execute]
    split
    · exact concluded_deleteCollection (by assumption)
    · exact .refused _ s.ids
  | setWallpaper slot id => exact concluded_settle fun _ => concluded_setWallpaper

end Store

end ShellSettings
