import ShellSettings.Proofs.Document.UnknownMembers
import ShellSettings.Proofs.Host.DiskLaws
import ShellSettings.Proofs.Store.Supplied
import ShellSettings.Proofs.Sync.AnyHost

/-!
# Documents on their way to a host

A document comes in as a value and goes out as one. What is read from a value is
written as a value of the same document, with every member that no record knows.
Edits build nothing that could not have been read, so whatever a store has of
values that were read, a request to save it carries exactly that document, under
its own digest (`Store.Supplied.handed_over`).
-/

namespace ShellSettings

theorem MemoryHost.document_persist {h : MemoryHost} {r : HostRequest} {d : Document}
    (hr : r.savable = .ok d) (hf : h.persistFailures = []) : (h.persist r).document = d := by
  simp only [persist, hr, hf]
  exact (pushAll_frame _).2.1

/-- The value of a document that was read is read as that document and has every member that no
record knows, unchanged. In a store that such a document was loaded into, every document there is
goes to the host as itself and under its own digest: no host finds it malformed or the digest
another one. -/
theorem Store.Supplied.handed_over {start s : Store} {v : Json} {d₀ : Document}
    {taken : List Document} (decoded : Document.ofJson? v = .ok d₀)
    (run : Supplied (start.install d₀).1 taken s) :
    (Document.ofJson? d₀.toValue = .ok d₀ ∧ Document.ofJson? d₀.toJson = .ok d₀) ∧
    (∀ place r key x, v.sorted.record? place = some r → place.field? key = none →
      r.get? key = some x → ∃ r', d₀.toValue.record? place = some r' ∧ r'.get? key = some x) ∧
    (∀ {η : Type} [Transport η] (session : Session η) (now : Nat), session.client.store = s →
      (session.beginSave now).2.host = session.host ∨ ∃ id d, s.get = .ok d ∧
        (session.beginSave now).2.host =
          (Transport.submit session.host (.persist id d d.digest)).2) ∧
    ∀ d, s.get = .ok d ∨ s.snapshot = .ok d ∨ d ∈ taken → ∀ id,
      (HostRequest.persist id d d.digest).document? = .ok (some d) ∧
      (HostRequest.persist id d d.digest).digest? = some d.digest ∧
      (∀ (h : DiskHost) e, (h.persist (.persist id d d.digest)).1 = .error e →
        ∃ io, e = .storageFailure (TransportError.io io).message) ∧
      ∀ h : MemoryHost, h.persistFailures = [] →
        (h.persist (.persist id d d.digest)).document = d := by
  have hd₀ := Document.wellFormed_of_read decoded
  obtain ⟨readable, htaken⟩ := run.readable (readable_install start hd₀)
  refine ⟨⟨Document.ofJson?_toValue hd₀, Document.ofJson?_toJson hd₀⟩, ?_, ?_, ?_⟩
  · intro place r key x hr hkey hx
    exact Document.unknown_kept decoded hr hkey hx
  · rintro η _ session now rfl
    rcases session.beginSave_host now with ⟨hhost, -⟩ | ⟨l, hl, -, hhost⟩
    · exact .inl hhost
    · exact .inr ⟨_, l.current, by simp [get, hl], hhost⟩
  · intro d hd id
    have wellFormed : d.WellFormed := by
      rcases hd with hd | hd | hd
      · exact readable.wellFormed (.inl hd)
      · exact readable.wellFormed (.inr hd)
      · exact htaken d hd
    have savable : (HostRequest.persist id d d.digest).savable = .ok d :=
      HostRequest.savable_persist wellFormed
    exact ⟨HostRequest.document?_persist wellFormed, HostRequest.digest?_persist,
      fun h e => DiskHost.persist_error savable, fun h => MemoryHost.document_persist savable⟩

def labelled : Json :=
  .obj [("monitors", .obj [("M1", .obj [("workspaces", .obj [("ws1", .obj [
    ("label", .str "main"), ("wallpaperCollection", .null)])])])])]

theorem Store.handed_over_labelled : ∃ d₀ s d,
    Document.ofJson? labelled = .ok d₀ ∧
      Supplied (Store.install { ids := ⟨fun _ => "", 0⟩ } d₀).1 [] s ∧ s.get = .ok d ∧
      (∃ r, d₀.toValue.record? (.workspace "M1" "ws1") = some r ∧
        r.get? "label" = some (.str "main")) ∧
      (HostRequest.persist "1" d d.digest).document? = .ok (some d) := by
  obtain ⟨d₀, hd₀⟩ : ∃ d₀, Document.ofJson? labelled = .ok d₀ := ⟨_, rfl⟩
  let start : Store := { ids := ⟨fun _ => "", 0⟩ }
  let c : StoreCommand := .setWallpaper (.workspace "M1" "ws2") none
  have run : Supplied (start.install d₀).1 [] ((start.install d₀).1.execute c).2 :=
    .execute c .start trivial
  obtain ⟨l, hl⟩ := Session.loaded_execute c (install_loaded start d₀)
  have hget : ((start.install d₀).1.execute c).2.get = .ok l.current := by simp [get, hl]
  obtain ⟨-, kept, -, carried⟩ := run.handed_over hd₀
  exact ⟨d₀, _, l.current, hd₀, run, hget,
    kept (.workspace "M1" "ws1") _ "label" _ rfl rfl rfl, (carried _ (.inl hget) "1").1⟩

end ShellSettings
