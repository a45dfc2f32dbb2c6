import ShellSettings.Proofs.Document.RoundTrip
import ShellSettings.Proofs.Json.CanonicalLaws

/-!
# What digests tell apart

A well-formed document is written without repeated keys, so its canonical text
forgets no more than the rounding of numbers. Unless two texts collide under
SHA-256, documents have one digest exactly when their values agree once all
numbers are rounded to doubles.
-/

namespace ShellSettings

open Json (Unique IsSorted)

namespace Json

theorem unique_obj {ms : List (String × Json)} (hkeys : (ms.map (·.1)).Nodup)
    (hvalues : ∀ m ∈ ms, m.2.Unique) : (Json.obj ms).Unique :=
  ⟨hkeys, membersEverywhere_iff.mpr hvalues⟩

theorem unique_arr {xs : List Json} (h : ∀ x ∈ xs, x.Unique) : (Json.arr xs).Unique :=
  ⟨trivial, itemsEverywhere_iff.mpr h⟩

theorem unique_ofStrings (ts : List String) : (ofStrings ts).Unique :=
  unique_arr (List.forall_mem_map.mpr fun _ _ => trivial)

theorem unique_ofOption (t : Option String) : (ofOption t).Unique := by
  cases t <;> trivial

theorem unique_ofMap {b : Blob} (h : b.All IsSorted) : (ofMap b).Unique :=
  unique_obj b.nodup_keys fun e he => (h e he).unique

end Json

theorem Map.unique_toJson {α : Type} {P : α → Prop} {write : α → Json} {m : Map α} (h : m.All P)
    (hwrite : ∀ a, P a → (write a).Unique) : (m.toJson write).Unique :=
  Json.unique_obj (by simpa [Function.comp_def] using m.nodup_keys)
    (List.forall_mem_map.mpr fun e he => hwrite e.2 (h e he))

namespace Updater

theorem unique_toJson {u : Updater} (hu : u.WellFormed) : u.toJson.Unique := by
  refine Json.unique_obj (by simpa [Function.comp_def] using nodup_keys hu)
    (List.forall_mem_map.mpr fun m hm => ?_)
  cases m with
  | channel c => trivial
  | extra key v => exact (hu _ hm).2.unique

end Updater

namespace Collection

theorem unique_toJson {c : Collection} (hc : c.WellFormed) : c.toJson.Unique := by
  refine Json.unique_obj (by simpa [Function.comp_def] using nodup_keys hc)
    (List.forall_mem_map.mpr fun m hm => ?_)
  cases m with
  | id t | name t => trivial
  | resources ids => exact Json.unique_ofStrings ids
  | extra key v => exact (hc _ hm).2.unique

end Collection

namespace Workspace

theorem unique_toJson {w : Workspace} (hw : w.WellFormed) : w.toJson.Unique := by
  refine Json.unique_obj (by simpa [Function.comp_def] using nodup_keys hw)
    (List.forall_mem_map.mpr fun m hm => ?_)
  cases m with
  | wallpaper id => exact Json.unique_ofOption id
  | extra key v => exact (hw _ hm).2.unique

end Workspace

namespace Monitor

theorem unique_toJson {m : Monitor} (hm : m.WellFormed) : m.toJson.Unique := by
  refine Json.unique_obj (by simpa [Function.comp_def] using nodup_keys hm)
    (List.forall_mem_map.mpr fun n hn => ?_)
  cases n with
  | widgets ws => exact Map.unique_toJson (hm _ hn) fun _ => Json.unique_ofMap
  | workspaces ws => exact Map.unique_toJson (hm _ hn) fun _ => Workspace.unique_toJson
  | wallpaper id => exact Json.unique_ofOption id
  | extra key v => exact (hm _ hn).2.unique

end Monitor

namespace Widget

theorem unique_toJson {w : Widget} (hw : w.WellFormed) : w.toJson.Unique := by
  refine Json.unique_obj (nodup_keys hw) fun e he => ?_
  obtain ⟨m, hm, hwrite⟩ := List.mem_filterMap.mp he
  cases m with
  | enabled b =>
    obtain ⟨b, -, rfl⟩ := Option.map_eq_some_iff.mp hwrite
    trivial
  | instances ws =>
    obtain ⟨ws, rfl, rfl⟩ := Option.map_eq_some_iff.mp hwrite
    exact Map.unique_toJson (hw _ hm ws rfl) fun _ => Json.unique_ofMap
  | setting key v =>
    cases hwrite
    exact (hw _ hm).2.unique

end Widget

namespace Document

theorem unique_toJson {d : Document} (hd : d.WellFormed) : d.toJson.Unique := by
  refine Json.unique_obj (by simpa [Function.comp_def] using nodup_keys hd)
    (List.forall_mem_map.mpr fun m hm => ?_)
  cases m with
  | widgets ws => exact Map.unique_toJson (hd _ hm) fun _ => Widget.unique_toJson
  | monitors ms => exact Map.unique_toJson (hd _ hm) fun _ => Monitor.unique_toJson
  | collections cs =>
    exact Json.unique_arr
      (List.forall_mem_map.mpr fun c hc => Collection.unique_toJson (hd _ hm c hc))
  | wallpaper id => exact Json.unique_ofOption id
  | themes ids | iconPacks ids => exact Json.unique_ofStrings ids
  | shortcuts b => exact Json.unique_ofMap (hd _ hm)
  | updater u => exact Updater.unique_toJson (hd _ hm)
  | extra key v => exact (hd _ hm).2.unique
  | _ => trivial

end Document

/-- The bytes of an array from a position on, after those that were read before it. -/
theorem toList_loop (b : ByteArray) (i : Nat) (r : List UInt8) :
    ByteArray.toList.loop b i r = r.reverse ++ b.data.toList.drop i := by
  induction hn : b.size - i generalizing i r with
  | zero =>
    have hlength : b.data.toList.length = b.size := by simp
    rw [ByteArray.toList.loop, if_neg (by omega), List.drop_of_length_le (by omega),
      List.append_nil]
  | succ n ih =>
    have hi : i < b.size := by omega
    have hdrop : b.data.toList.drop i = b.get! i :: b.data.toList.drop (i + 1) := by
      rw [List.drop_eq_getElem_cons (by simpa using hi), ByteArray.get!]
      simp [hi]
    rw [ByteArray.toList.loop, if_pos hi, ih (i + 1) _ (by omega), hdrop]
    simp

namespace Sha256

def Collides (s t : String) : Prop := s ≠ t ∧ hexDigest s = hexDigest t

theorem hexDigest_ofList (cs : List Char) : hexDigest (String.ofList cs) =
    String.ofList ((hash (cs.flatMap String.utf8EncodeChar)).words.flatMap hexWord) := by
  have hbytes : (String.ofList cs).toUTF8.toList = cs.flatMap String.utf8EncodeChar := by
    rw [ByteArray.toList, toList_loop]
    simp [String.toUTF8, List.utf8Encode]
  rw [hexDigest, hbytes]

end Sha256

namespace Document

variable {d e : Document}

/-- Documents that are the same once every number is rounded to the nearest double. -/
def SameRounded (d e : Document) : Prop := d.toValue.rounded = e.toValue.rounded

theorem canonical_eq_iff (hd : d.WellFormed) (he : e.WellFormed) :
    d.toJson.canonical = e.toJson.canonical ↔ d.SameRounded e :=
  Json.canonical_eq_iff (unique_toJson hd) (unique_toJson he)

theorem SameRounded.digest_eq (hd : d.WellFormed) (he : e.WellFormed) (h : d.SameRounded e) :
    d.digest = e.digest := by
  rw [digest, (canonical_eq_iff hd he).mpr h, digest]

theorem digest_eq_iff (hd : d.WellFormed) (he : e.WellFormed)
    (hhash : ¬ Sha256.Collides d.toJson.canonical e.toJson.canonical) :
    d.digest = e.digest ↔ d.SameRounded e := by
  refine ⟨fun h => (canonical_eq_iff hd he).mp ?_, SameRounded.digest_eq hd he⟩
  by_contra hne
  exact hhash ⟨hne, h⟩

/-- A digest that can be evaluated: nothing is left to sort. -/
theorem digest_of_unitsOrdered (hd : d.WellFormed)
    (h : d.toValue.Everywhere Json.UnitsOrdered) :
    d.digest = String.ofList
      ((Sha256.hash ((d.toValue.chars Number.canonical).flatMap String.utf8EncodeChar)).words.flatMap
        Sha256.hexWord) := by
  rw [digest, Json.canonical_of_unitsOrdered (unique_toJson hd) h, Sha256.hexDigest_ofList]
  rfl

end Document

end ShellSettings
