import ShellSettings.Proofs.Document.RoundTrip
import ShellSettings.Proofs.Json.CursorLaws
import ShellSettings.Proofs.Json.TextLaws

/-!
# Reading the text of a document

A document is written to a file as indented text and read back from it as it was
if its containers are nested no deeper than a reader goes. Deeper ones are
written all the same, and what was written cannot be read.
-/

namespace ShellSettings

open Read (Thorough)

namespace Updater

theorem thorough_member (field : String) : Thorough (Member.read field) := by
  unfold Member.read
  split
  · exact (Read.thorough_name _).fmap _
  · exact Read.thorough_json.fmap _

theorem thorough_read : Thorough Updater.read :=
  (Record.thorough_ofMap thorough_member fun _ => Read.thorough_json.bind _).bind _

end Updater

namespace Collection

theorem thorough_member (field : String) : Thorough (Member.read field) := by
  unfold Member.read
  split
  · exact Read.thorough_text.fmap _
  · exact Read.thorough_text.fmap _
  · exact Read.thorough_text.list.fmap _
  · exact Read.thorough_json.fmap _

theorem thorough_read : Thorough Collection.read :=
  (Record.thorough_ofMap thorough_member fun _ => Read.thorough_json.bind _).bind _

end Collection

namespace Workspace

theorem thorough_member (field : String) : Thorough (Member.read field) := by
  unfold Member.read
  split
  · exact Read.thorough_text.optional.fmap _
  · exact Read.thorough_json.fmap _

theorem thorough_read : Thorough Workspace.read :=
  (Record.thorough_ofMap thorough_member fun _ => Read.thorough_json.bind _).bind _

end Workspace

namespace Monitor

theorem thorough_member (field : String) : Thorough (Member.read field) := by
  unfold Member.read
  split
  · exact Read.thorough_blob.map.fmap _
  · exact Workspace.thorough_read.map.fmap _
  · exact Read.thorough_text.optional.fmap _
  · exact Read.thorough_json.fmap _

theorem thorough_read : Thorough Monitor.read :=
  (Record.thorough_ofMap thorough_member fun _ => Read.thorough_json.bind _).bind _

end Monitor

namespace Widget

theorem thorough_member (field : String) : Thorough (Member.read field) := by
  unfold Member.read
  split
  · exact Read.thorough_bool.optional.fmap _
  · exact Read.thorough_blob.map.optional.fmap _
  · exact Read.thorough_json.fmap _

theorem thorough_read : Thorough Widget.read :=
  (Record.thorough_ofMap thorough_member fun _ => Read.thorough_json.bind _).bind _

end Widget

namespace Document

theorem thorough_member (field : String) : Thorough (Member.read field) := by
  unfold Member.read
  split
  · exact Widget.thorough_read.map.fmap _
  · exact Monitor.thorough_read.map.fmap _
  · exact Collection.thorough_read.list.fmap _
  · exact Read.thorough_text.optional.fmap _
  · exact Read.thorough_text.list.fmap _
  · exact Read.thorough_text.list.fmap _
  · exact Read.thorough_text.fmap _
  · exact Read.thorough_text.fmap _
  · exact Read.thorough_blob.fmap _
  · exact (Read.thorough_name _).fmap _
  · exact (Read.thorough_name _).fmap _
  · exact Read.thorough_bool.fmap _
  · exact Updater.thorough_read.fmap _
  · exact Read.thorough_json.fmap _

theorem thorough_read : Thorough Document.read :=
  (Record.thorough_ofMap thorough_member fun _ => Read.thorough_json.bind _).bind _

/-- A document that the text of a file can hold: all its numbers fit, and its containers are
nested no deeper than a reader goes. -/
structure Legible (d : Document) : Prop where
  exact : d.toJson.Exact
  shallow : d.toJson.depth ≤ Cursor.depthLimit

variable {d : Document}

theorem ofText?_pretty (hd : d.WellFormed) (hl : d.Legible) :
    ofText? d.toJson.pretty = .ok d := by
  have hwhole := Draft.whole_ofJson Cursor.depthLimit d.toJson
  rw [if_pos hl.shallow] at hwhole
  have hread : read (⟨Cursor.depthLimit, Draft.ofJson d.toJson⟩ : Cursor) = .ok d :=
    read_written Json.rearranges_id hd hwhole
  simp only [ofText?, readText, Json.ofText_pretty hl.exact, hread]
  rfl

theorem ofText?_pretty_deep (hexact : d.toJson.Exact)
    (hdeep : Cursor.depthLimit < d.toJson.depth) : ∃ e, ofText? d.toJson.pretty = .error e := by
  cases hread : read (⟨Cursor.depthLimit, Draft.ofJson d.toJson⟩ : Cursor) with
  | ok e =>
    obtain ⟨v, hv⟩ := thorough_read _ _ hread
    have hwhole := Draft.whole_ofJson Cursor.depthLimit d.toJson
    rw [if_neg (by omega)] at hwhole
    cases hv.symm.trans hwhole
  | error e =>
    refine ⟨e, ?_⟩
    simp only [ofText?, readText, Json.ofText_pretty hexact, hread]
    rfl

theorem eq_of_ofText?_pretty {e : Document} (hd : d.WellFormed) (hexact : d.toJson.Exact)
    (h : ofText? d.toJson.pretty = .ok e) : e = d := by
  by_cases hdeep : Cursor.depthLimit < d.toJson.depth
  · obtain ⟨error, herror⟩ := ofText?_pretty_deep hexact hdeep
    cases h.symm.trans herror
  · exact Except.ok.inj (h.symm.trans (ofText?_pretty hd ⟨hexact, by omega⟩))

theorem wellFormed_of_ofText? {text : String} (h : ofText? text = .ok d) : d.WellFormed := by
  obtain ⟨read, hread, h⟩ := bind_eq_ok h
  obtain ⟨_, -, h⟩ := bind_eq_ok h
  cases h
  exact wellFormed_of_read hread

end Document

end ShellSettings
