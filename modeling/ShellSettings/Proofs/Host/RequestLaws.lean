import ShellSettings.Host.Envelope
import ShellSettings.Proofs.Document.RoundTrip

/-!
# Requests to load and to save

A request to save carries the document as a value and its digest apart. Any host
reads the document back from the value exactly as it was handed over, and finds
the digest that is claimed to be its own (`HostRequest.savable_persist`).
-/

namespace ShellSettings.HostRequest

variable {id digest : String} {d : Document}

theorem path?_load (path : Option String) : (load id path).path? = path := by
  cases path <;> simp [path?, load, Json.get?, Json.string?]

theorem document?_persist (hd : d.WellFormed) : (persist id d digest).document? = .ok (some d) := by
  have hv : (persist id d digest).payload.get? "document" = some d.toValue := by
    simp [persist, Json.get?, Map.lookup_cons]
  simp [document?, hv, Document.ofJson?_toValue hd]

theorem digest?_persist : (persist id d digest).digest? = some digest := by
  simp [digest?, persist, Json.get?, Json.string?]

theorem savable_persist (hd : d.WellFormed) : (persist id d d.digest).savable = .ok d := by
  simp [savable, document?_persist hd, digest?_persist]

theorem wellFormed_of_savable {r : HostRequest}
    (h : r.savable = .ok d) : d.WellFormed := by
  unfold savable at h
  split at h
  · cases h
  · cases h
  · rename_i e hdocument
    split at h
    · cases h
      unfold document? at hdocument
      split at hdocument
      · cases hdocument
      · obtain ⟨_, hread, hsome⟩ := map_eq_ok hdocument
        cases hsome
        exact Document.wellFormed_of_read hread
    · cases h

end ShellSettings.HostRequest
