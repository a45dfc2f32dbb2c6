import ShellSettings.Proofs.Store.Availability
import ShellSettings.Proofs.Store.Supplied

/-!
# Documents that last

A document lasts if a host reads it as it was handed over and a load that knows no
catalogs leaves it as it is. Both documents of a store last, whatever is loaded,
edited and saved (`Store.Grown.lasting`).
-/

namespace ShellSettings

namespace Document

variable {c : Catalog} {d : Document} {kind : ResourceKind} {keep : String → Bool}

/-- What refers to nothing that is missing does so even less where no catalog is known. -/
theorem Intact.uncataloged (h : d.Intact c) : d.Intact .empty := by
  have hunlisted : ∀ kind, d.unlisted kind (Catalog.empty.admits kind) = [] :=
    fun kind => unlisted_eq_nil.mpr fun _ _ => rfl
  have hslots := h.integral
  simp only [dangling, List.append_eq_nil_iff] at hslots
  refine ⟨h.normalized, ?_⟩
  simp only [dangling, List.append_eq_nil_iff, hunlisted, and_true]
  exact hslots.1.1.1

structure Lasting (d : Document) : Prop where
  wellFormed : d.WellFormed
  intact : d.Intact .empty

theorem Lasting.retain (h : d.Lasting) (kind : ResourceKind) (ids : IdSet) :
    (d.retain kind ids.contains).Lasting :=
  ⟨h.wellFormed.retain, h.intact.retain_publish.uncataloged⟩

theorem Intact.repair (h : d.Intact c) : d.normalize.repair c = (d, []) := by
  have hdropped : (d.repair c).2 = [] := by rw [repair_eq, h.integral]
  rw [h.normalized]
  exact Prod.ext (repair_eq_self hdropped) hdropped

end Document

namespace Store

variable {s t : Store} {d : Document}

abbrev Lasting : Store → Prop := Both fun _ d => d.Lasting

theorem lasting_install (s : Store) (hd : d.WellFormed) : (s.install d).1.Lasting :=
  both_install ⟨hd.normalize.repair, (Document.intact_repair _ _).uncataloged⟩

theorem Lasting.edited (h : s.Lasting) (he : s.Edited t) : t.Lasting :=
  Both.edited h he
    (fun l _ hl normalized dangling wellFormed =>
      ⟨wellFormed (h l hl).1.wellFormed, Document.Intact.uncataloged ⟨normalized, dangling⟩⟩)
    fun _ _ kind ids hd => hd.retain kind ids

theorem install_of_intact (hd : d.Intact s.catalog) :
    (∃ revision, (s.install d).1.loaded =
        some { current := d, snapshot := d, revision, repaired := false }) ∧
      (s.install d).2 = [] := by
  refine ⟨⟨(s.revision.map (· + 1)).getD 0, ?_⟩, congrArg Prod.snd hd.repair⟩
  rw [install_loaded, hd.repair]
  rfl

theorem install_of_lasting (hcatalog : s.catalog = .empty) (hd : d.Lasting) :
    (∃ revision, (s.install d).1.loaded =
        some { current := d, snapshot := d, revision, repaired := false }) ∧
      (s.install d).2 = [] :=
  install_of_intact (hcatalog ▸ hd.intact)

/-- The stores that can be reached with documents that were read from values. Only what was taken
from the store before is taken for saved. -/
inductive Grown (start : Store) : List Document → Store → Prop
  | start : Grown start [] start
  | take {taken s d} (grown : Grown start taken s) (h : s.get = .ok d ∨ s.snapshot = .ok d) :
    Grown start (d :: taken) s
  | execute {taken s} (c : StoreCommand) (grown : Grown start taken s)
    (brings : c.BringsRead taken) (saves : c.SavesRead taken) :
    Grown start taken (s.execute c).2

variable {start : Store} {taken : List Document}

theorem Lasting.execute {c : StoreCommand} (h : s.Lasting) (htaken : ∀ d ∈ taken, d.Lasting)
    (brings : c.BringsRead taken) (saves : c.SavesRead taken) : (s.execute c).2.Lasting := by
  refine Both.execute h ?_ ?_
    (fun l _ hl normalized dangling wellFormed =>
      ⟨wellFormed (h l hl).1.wellFormed, Document.Intact.uncataloged ⟨normalized, dangling⟩⟩)
    fun _ _ kind ids hd => hd.retain kind ids
  · intro d hc
    have wellFormed : d.WellFormed := by
      rcases hc with rfl | rfl
      all_goals
        rcases brings with hd | ⟨v, hv⟩
        · exact (htaken d hd).wellFormed
        · exact Document.wellFormed_of_read hv
    exact ⟨wellFormed.normalize.repair, (Document.intact_repair _ _).uncataloged⟩
  · rintro d rfl
    exact htaken d saves

theorem Grown.lasting (unloaded : start.loaded = none) (grown : Grown start taken s) :
    s.Lasting ∧ ∀ d ∈ taken, d.Lasting := by
  induction grown with
  | start => exact ⟨fun l hl => by simp [unloaded] at hl, List.forall_mem_nil _⟩
  | @take taken s d _ h ih =>
    refine ⟨ih.1, List.forall_mem_cons.mpr ⟨?_, ih.2⟩⟩
    cases hl : s.loaded with
    | none => simp [get, snapshot, hl] at h
    | some l =>
      simp only [get, snapshot, hl, Except.ok.injEq] at h
      rcases h with rfl | rfl
      · exact (ih.1 l hl).1
      · exact (ih.1 l hl).2
  | execute c _ brings saves ih => exact ⟨ih.1.execute ih.2 brings saves, ih.2⟩

end Store

end ShellSettings
