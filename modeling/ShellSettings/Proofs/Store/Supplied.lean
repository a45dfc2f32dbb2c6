import ShellSettings.Proofs.Store.EditLaws

/-!
# Stores of documents that were read

Documents come into a store from outside, as values that were read. Edits build
nothing that could not have been read, so whatever a run of commands leads to, both
documents of the store could have been read (`Store.Supplied.readable`).
-/

namespace ShellSettings

/-- A document brought in from outside was read from a value, or was taken from the store. -/
def StoreCommand.BringsRead (taken : List Document) : StoreCommand → Prop
  | .load d | .replace d | .markSaved d => d ∈ taken ∨ ∃ v, Document.ofJson? v = .ok d
  | _ => True

namespace Store

/-- The stores that can be reached, each with documents that were taken from it on the way. -/
inductive Supplied (start : Store) : List Document → Store → Prop
  | start : Supplied start [] start
  | take {taken s d} (run : Supplied start taken s) (h : s.get = .ok d ∨ s.snapshot = .ok d) :
    Supplied start (d :: taken) s
  | execute {taken s} (c : StoreCommand) (run : Supplied start taken s) (h : c.BringsRead taken) :
    Supplied start taken (s.execute c).2

variable {start s : Store} {taken : List Document} {d : Document}

/-- Both documents could have been read. -/
abbrev Readable : Store → Prop := Both fun _ d => d.WellFormed

theorem readable_install (s : Store) (hd : d.WellFormed) : (s.install d).1.Readable :=
  both_install hd.normalize.repair

theorem Readable.wellFormed (h : s.Readable) (hd : s.get = .ok d ∨ s.snapshot = .ok d) :
    d.WellFormed := by
  cases hl : s.loaded with
  | none => simp [get, snapshot, hl] at hd
  | some l =>
    simp only [get, snapshot, hl, Except.ok.injEq] at hd
    rcases hd with rfl | rfl
    · exact (h l hl).1
    · exact (h l hl).2

theorem Readable.execute {c : StoreCommand} (h : s.Readable) (htaken : ∀ d ∈ taken, d.WellFormed)
    (hc : c.BringsRead taken) : (s.execute c).2.Readable := by
  have brought : ∀ {d}, (d ∈ taken ∨ ∃ v, Document.ofJson? v = .ok d) → d.WellFormed := by
    rintro d (hd | ⟨v, hv⟩)
    · exact htaken d hd
    · exact Document.wellFormed_of_read hv
  refine Both.execute h ?_ ?_ (fun l _ hl _ _ wellFormed => wellFormed (h l hl).1)
    fun _ _ _ _ hd => hd.retain
  · rintro d (rfl | rfl) <;> exact (brought hc).normalize.repair
  · rintro d rfl
    exact brought hc

theorem Supplied.readable (h : start.Readable) (run : Supplied start taken s) :
    s.Readable ∧ ∀ d ∈ taken, d.WellFormed := by
  induction run with
  | start => exact ⟨h, nofun⟩
  | take _ hd ih => exact ⟨ih.1, List.forall_mem_cons.mpr ⟨ih.1.wellFormed hd, ih.2⟩⟩
  | execute c _ hc ih => exact ⟨ih.1.execute ih.2 hc, ih.2⟩

end Store

end ShellSettings
