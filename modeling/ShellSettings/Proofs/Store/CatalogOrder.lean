import ShellSettings.Proofs.Json.SameLaws
import ShellSettings.Proofs.Store.EditLaws

/-!
# Catalogs before and after a document

A document that is installed is repaired by the catalogs known, and a catalog
that is published later prunes both documents and keeps its own account of what
was dropped. Both ways the store comes to hold the document as all the catalogs
together repair it (`Store.Holds`), as long as none of them takes the place of an
earlier one. So it is of no account which catalogs come first
(`Store.holds_install_publishAll`).
-/

namespace ShellSettings

variable {feed : Feed} {feeds feeds' before after : List Feed}

-- ---------------------------------------------------------------------------
-- Catalogs in any order
-- ---------------------------------------------------------------------------

namespace Catalog

variable {c : Catalog} {kind kind' : ResourceKind} {ids ids' : IdSet}

def publishAll (c : Catalog) (feeds : List Feed) : Catalog :=
  feeds.foldl (fun c feed => c.publish feed.kind feed.ids) c

theorem ids?_publishAll (h : ∀ feed ∈ feeds, feed.kind ≠ kind) :
    (c.publishAll feeds).ids? kind = c.ids? kind := by
  induction feeds generalizing c with
  | nil => rfl
  | cons feed feeds ih =>
    obtain ⟨first, others⟩ := List.forall_mem_cons.mp h
    exact (ih others).trans (if_neg first.symm)

theorem publish_comm (h : kind ≠ kind') :
    (c.publish kind ids).publish kind' ids' = (c.publish kind' ids').publish kind ids := by
  simp only [publish, mk.injEq]
  funext k
  by_cases hk : k = kind'
  · simp [hk, h.symm]
  · simp [hk]

theorem publishAll_perm (perm : feeds.Perm feeds') (distinct : (feeds.map Feed.kind).Nodup)
    (c : Catalog) : c.publishAll feeds = c.publishAll feeds' := by
  -- Only a swap changes anything, and it is of two kinds that differ.
  induction perm generalizing c with
  | nil => rfl
  | cons feed _ ih => exact ih (List.nodup_cons.mp distinct).2 _
  | swap feed feed' feeds =>
    have hne : feed.kind ≠ feed'.kind := by
      intro h
      rw [List.map_cons, List.map_cons, h] at distinct
      exact (List.nodup_cons.mp distinct).1 List.mem_cons_self
    exact congrArg (publishAll · feeds) (publish_comm hne.symm)
  | trans perm _ ih ih' =>
    exact (ih distinct c).trans (ih' ((perm.map Feed.kind).nodup_iff.mp distinct) c)

end Catalog

-- ---------------------------------------------------------------------------
-- What one more catalog changes
-- ---------------------------------------------------------------------------

namespace Document

variable {d : Document} {c : Catalog} {kind : ResourceKind} {ids : IdSet} {keep : String → Bool}

theorem unlisted_unknown (h : c.ids? kind = none) : d.unlisted kind (c.admits kind) = [] := by
  simp [unlisted_eq_nil, Catalog.admits, h]

theorem retainAdmitted_publish (h : c.ids? kind = none) :
    d.retainAdmitted (c.publish kind ids) = (d.retainAdmitted c).retain kind ids.contains := by
  have hall : ∀ d : Document, d.retain kind (c.admits kind) = d :=
    fun _ => retain_eq_self (unlisted_unknown h)
  cases kind <;>
    simp [retainAdmitted, ResourceKind.all, admits_publish_self, admits_publish_of_ne, hall] <;> rfl

theorem unlisted_repair (h : c.ids? kind = none) :
    (d.repair c).1.unlisted kind keep = d.unlisted kind keep := by
  have hall : ∀ d : Document, d.retain kind (c.admits kind) = d :=
    fun _ => retain_eq_self (unlisted_unknown h)
  rw [repair_eq]
  cases kind <;>
    simp [retainAdmitted, ResourceKind.all, unlisted_retain_of_ne, unlisted_clearSlots, hall]

theorem dangling_publish (h : c.ids? kind = none) :
    d.dangling (c.publish kind ids) = [] ↔
      d.dangling c = [] ∧ d.unlisted kind ids.contains = [] := by
  have hnone : d.unlisted kind (c.admits kind) = [] := unlisted_unknown h
  have hwidget : d.unlisted .widget ids.contains = [] := rfl
  cases kind <;>
    simp [dangling, admits_publish_self, admits_publish_of_ne, hnone, hwidget, and_assoc,
      and_comm, and_left_comm]

/-- Repairing under one more catalog is pruning what was repaired under the others, if the kind was
unknown to them. -/
theorem repair_publish (h : c.ids? kind = none) :
    (d.repair (c.publish kind ids)).1 = (d.repair c).1.retain kind ids.contains ∧
      ((d.repair (c.publish kind ids)).2 = [] ↔
        (d.repair c).2 = [] ∧ (d.repair c).1.unlisted kind ids.contains = []) := by
  rw [unlisted_repair h, repair_eq, repair_eq]
  exact ⟨retainAdmitted_publish h, dangling_publish h⟩

end Document

-- ---------------------------------------------------------------------------
-- Stores
-- ---------------------------------------------------------------------------

namespace Store

variable {s : Store} {d : Document}

def publishAll (s : Store) (feeds : List Feed) : Store :=
  feeds.foldl (fun s feed => (s.applyCatalog feed).1) s

theorem publishAll_catalog : (s.publishAll feeds).catalog = s.catalog.publishAll feeds := by
  induction feeds generalizing s with
  | nil => rfl
  | cons feed feeds ih =>
    refine (ih (s := (s.applyCatalog feed).1)).trans ?_
    rw [applyCatalog_catalog]
    rfl

/-- Both documents are what the catalogs known leave of `d`, and what they take from it the host
still has. -/
def Holds (s : Store) (d : Document) : Prop :=
  ∃ revision, s.loaded = some {
    current := (d.repair s.catalog).1
    snapshot := (d.repair s.catalog).1
    revision
    repaired := !(d.repair s.catalog).2.isEmpty }

theorem holds_install (s : Store) (d : Document) : (s.install d).1.Holds d.normalize :=
  ⟨_, install_loaded s d⟩

theorem Holds.applyCatalog (h : s.Holds d) (unknown : s.catalog.ids? feed.kind = none) :
    (s.applyCatalog feed).1.Holds d := by
  obtain ⟨revision, hl⟩ := h
  obtain ⟨hdocument, hdropped⟩ :
      (d.repair (s.catalog.publish feed.kind feed.ids)).1 =
          (d.repair s.catalog).1.retain feed.kind feed.ids.contains ∧
        ((d.repair (s.catalog.publish feed.kind feed.ids)).2 = [] ↔
          (d.repair s.catalog).2 = [] ∧
            (d.repair s.catalog).1.unlisted feed.kind feed.ids.contains = []) :=
    Document.repair_publish unknown
  unfold Holds
  rw [applyCatalog_catalog, hdocument]
  -- The catalog drops something from both documents alike, or nothing from either.
  by_cases hnone : (d.repair s.catalog).1.unlisted feed.kind feed.ids.contains = []
  · have hempty : (d.repair (s.catalog.publish feed.kind feed.ids)).2.isEmpty =
        (d.repair s.catalog).2.isEmpty := by
      rw [Bool.eq_iff_iff, List.isEmpty_iff, List.isEmpty_iff, hdropped]
      exact and_iff_left hnone
    refine ⟨revision, ?_⟩
    simp [Store.applyCatalog, hl, Document.prune, hnone, hempty, Document.retain_eq_self hnone]
  · have hdangling : (d.repair (s.catalog.publish feed.kind feed.ids)).2.isEmpty = false := by
      rw [List.isEmpty_eq_false_iff]
      exact fun h => hnone (hdropped.mp h).2
    refine ⟨revision + 1, ?_⟩
    simp [Store.applyCatalog, hl, Document.prune, hnone, hdangling]

theorem Holds.publishAll (h : s.Holds d) (distinct : (feeds.map Feed.kind).Nodup)
    (unknown : ∀ feed ∈ feeds, s.catalog.ids? feed.kind = none) : (s.publishAll feeds).Holds d := by
  induction feeds generalizing s with
  | nil => exact h
  | cons feed feeds ih =>
    obtain ⟨new, rest⟩ := List.nodup_cons.mp distinct
    obtain ⟨first, others⟩ := List.forall_mem_cons.mp unknown
    -- The others are still unknown, being of other kinds than the one just published.
    refine ih (h.applyCatalog first) rest fun feed' hfeed => ?_
    have hne : feed'.kind ≠ feed.kind := by
      intro hkind
      exact new (hkind ▸ List.mem_map_of_mem hfeed)
    rw [applyCatalog_catalog]
    exact (if_neg hne).trans (others feed' hfeed)

theorem Holds.shows (h : s.Holds d) :
    s.get = .ok (d.repair s.catalog).1 ∧ s.snapshot = .ok (d.repair s.catalog).1 ∧
      s.isDirty = false ∧ s.needsSave = !(d.repair s.catalog).2.isEmpty := by
  obtain ⟨revision, hl⟩ := h
  have hclean : s.isDirty = false := by
    simp [isDirty, hl, Loaded.isDirty, Document.same, Json.same_self]
  refine ⟨by simp [get, hl], by simp [snapshot, hl], hclean, ?_⟩
  simp [needsSave, hclean, hl]

/-- However the catalogs are divided up, in whatever order, the store ends up holding the document
that is installed in between, under all of them. -/
theorem holds_install_publishAll (distinct : (feeds.map Feed.kind).Nodup)
    (unknown : ∀ feed ∈ feeds, s.catalog.ids? feed.kind = none)
    (perm : (before ++ after).Perm feeds) (d : Document) :
    (((s.publishAll before).install d).1.publishAll after).Holds d.normalize ∧
      (((s.publishAll before).install d).1.publishAll after).catalog =
        s.catalog.publishAll feeds := by
  have distinct' : ((before ++ after).map Feed.kind).Nodup :=
    (perm.map Feed.kind).nodup_iff.mpr distinct
  have hcatalog : ((s.publishAll before).install d).1.catalog = s.catalog.publishAll before :=
    publishAll_catalog
  constructor
  · rw [List.map_append] at distinct'
    obtain ⟨-, distinctAfter, disjoint⟩ := List.nodup_append.mp distinct'
    refine (holds_install _ d).publishAll distinctAfter fun feed hfeed => ?_
    have hothers : ∀ feed' ∈ before, feed'.kind ≠ feed.kind := by
      intro feed' hfeed'
      exact disjoint _ (List.mem_map_of_mem hfeed') _ (List.mem_map_of_mem hfeed)
    rw [hcatalog, Catalog.ids?_publishAll hothers]
    exact unknown feed (perm.mem_iff.mp (List.mem_append_right _ hfeed))
  · rw [publishAll_catalog, hcatalog, ← Catalog.publishAll_perm perm distinct']
    exact List.foldl_append.symm

end Store

end ShellSettings
