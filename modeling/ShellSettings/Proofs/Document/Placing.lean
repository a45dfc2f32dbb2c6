import ShellSettings.Proofs.Document.EditLaws
import ShellSettings.Proofs.Document.Parts
import ShellSettings.Proofs.Document.PathLaws

/-!
# Putting a member where it stands

A document in which one field is another is written as before, but for the member of
that field, at whatever depth it stands (`Json.Put`). So the edit of a field and the
merge of its member into the object around it come to the same value.
-/

namespace ShellSettings

namespace Json

/-- The object at a path has a member under a key in `w`, and everything else is as in `v`. -/
inductive Put (key : String) (x : Json) : List String → Json → Json → Prop
  | here (m : Blob) : Put key x [] (.ofMap m) (.ofMap (m.insert key x))
  | under {k keys v w} {m : Blob} (hk : m.get? k = some v) (h : Put key x keys v w) :
    Put key x (k :: keys) (.ofMap m) (.ofMap (m.insert k w))

variable {key k : String} {x v w : Json} {keys : List String} {members : List (String × Json)}

theorem setMember_entries {m : Blob} (h : (m.get? key).isSome) :
    setMember key x m.entries = (m.insert key x).entries := by
  refine Map.entries_ext ?_ (m.insert key x).sorted fun key' => ?_
  · have hkeys : (setMember key x m.entries).map (·.1) = m.entries.map (·.1) := keys_setMember
    have hsorted := List.pairwise_map.mpr m.sorted
    rw [← hkeys] at hsorted
    exact List.pairwise_map.mp hsorted
  · exact (lookup_setMember h key').trans (Map.get?_insert m key key' x).symm

theorem Put.replace? (h : Put key x keys v w) : ∃ old : Blob,
    v.at? keys = some (.ofMap old) ∧ Json.replace? (.ofMap (old.insert key x)) keys v = some w := by
  induction h with
  | here m => exact ⟨m, rfl, rfl⟩
  | @under k keys v w m hk h ih =>
    obtain ⟨old, hat, hreplace⟩ := ih
    have hlookup : m.entries.lookup k = some v := hk
    refine ⟨old, ?_, ?_⟩
    · simpa [at?, Json.get?, ofMap, hlookup] using hat
    · have hmember : setMember k w m.entries = (m.insert k w).entries :=
        setMember_entries (by simp [hk])
      change (m.entries.lookup k).bind (fun old => _) = _
      rw [hlookup, Option.bind_some, hreplace]
      exact congrArg (fun l => some (obj l)) hmember

theorem sorted_setMember (hkeys : (members.map (·.1)).Nodup) (h : (members.lookup key).isSome) :
    (obj (setMember key x members)).sorted =
      .ofMap ((Map.ofList (sortedMembers members)).insert key x.sorted) := by
  refine congrArg ofMap (Map.ext_get? fun key' => ?_)
  -- Of a repeated key the first member would be set and the last one kept.
  have hget : ∀ ms : List (String × Json), (ms.map (·.1)).Nodup →
      (Map.ofList (sortedMembers ms)).get? key' = (ms.lookup key').map sorted := fun ms hms => by
    rw [← last?_obj hms, ← get?_sorted]
    rfl
  rw [Map.get?_insert, hget members hkeys, hget _ (by rwa [keys_setMember]), lookup_setMember h]
  split <;> rfl

theorem put_written (hkeys : (members.map (·.1)).Nodup) (h : (members.lookup key).isSome) :
    Put key x.sorted [] (obj members).sorted (obj (setMember key x members)).sorted := by
  rw [sorted_setMember hkeys h]
  exact .here _

theorem Put.inMember (hkeys : (members.map (·.1)).Nodup) (hv : members.lookup k = some v)
    (h : Put key x keys v.sorted w.sorted) :
    Put key x (k :: keys) (obj members).sorted (obj (setMember k w members)).sorted := by
  rw [sorted_setMember hkeys (by simp [hv])]
  refine .under ?_ h
  change (obj members).sorted.get? k = _
  rw [get?_sorted, last?_obj hkeys, hv]
  rfl

theorem Put.inEntry {α : Type} {write : α → Json} {m : Map α} {a b : α} (ha : m.get? k = some a)
    (h : Put key x keys (write a).sorted (write b).sorted) :
    Put key x (k :: keys) (m.toJson write).sorted ((m.insert k b).toJson write).sorted := by
  have hsorted : ∀ n : Map α,
      (n.toJson write).sorted = .ofMap (n.map fun _ a => (write a).sorted) := fun n => by
    simp only [Map.toJson, sorted, sortedMembers_eq_map, ofMap, List.map_map]
    exact congrArg (fun n => Json.obj n.entries)
      (Map.ofList_entries (n.map fun _ a => (write a).sorted))
  rw [hsorted, hsorted, Map.map_insert (fun a => (write a).sorted)]
  refine .under ?_ h
  rw [Map.get?_map, ha]
  rfl

end Json

theorem Monitor.WellFormed.put_wallpaper {m : Monitor} (hm : m.WellFormed) (id : Option String) :
    Json.Put "wallpaperCollection" (Json.ofOption id).sorted [] m.toJson.sorted
      { m with wallpaper := id }.toJson.sorted := by
  have hkeys : ((m.members.map Member.write).map (·.1)).Nodup := by
    simpa [Function.comp_def] using nodup_keys hm
  exact Json.put_written hkeys (by rfl)

theorem Widget.WellFormed.put_instances {w : Widget} {m : Map Blob} (hw : w.WellFormed)
    (hm : w.instances = some m) (n : Map Blob) :
    Json.Put instancesKey (n.toJson .ofMap).sorted [] w.toJson.sorted
      { w with instances := some n }.toJson.sorted := by
  have hlookup : ((w.members.filterMap Member.write).lookup instancesKey).isSome := by
    cases he : w.enabled <;>
      simp [members, Member.write, hm, he, instancesKey, enabledKey, List.filterMap_cons,
        Map.lookup_cons]
  have hmembers : Json.setMember instancesKey (n.toJson .ofMap) (w.members.filterMap Member.write) =
      { w with instances := some n }.members.filterMap Member.write := by
    cases he : w.enabled <;>
      simp [members, Member.write, Json.setMember, hm, he, instancesKey, enabledKey,
        List.filterMap_cons]
  have hput := Json.put_written (x := n.toJson .ofMap) (nodup_keys hw) hlookup
  rwa [hmembers] at hput

namespace Document

variable {d : Document} {widget monitor : String} {w : Widget} {m : Monitor}

theorem nodup_written (hd : d.WellFormed) : ((d.members.map Member.write).map (·.1)).Nodup := by
  simpa [Function.comp_def] using nodup_keys hd

theorem put_collections (hd : d.WellFormed) (cs : List Collection) :
    Json.Put "collections" (Json.arr (cs.map Collection.toJson)).sorted [] d.toValue
      { d with collections := cs }.toValue :=
  Json.put_written (nodup_written hd) (by rfl)

theorem put_wallpaper (hd : d.WellFormed) (id : Option String) :
    Json.Put "wallpaperCollection" (Json.ofOption id).sorted [] d.toValue
      (d.setSlot .global id).toValue :=
  Json.put_written (nodup_written hd) (by rfl)

theorem put_monitorWallpaper (hd : d.WellFormed) (hm : d.monitors.get? monitor = some m)
    (id : Option String) :
    Json.Put "wallpaperCollection" (Json.ofOption id).sorted ["monitors", monitor] d.toValue
      (d.setSlot (.monitor monitor) id).toValue := by
  have hput := (hd.parts.2.1.get? hm).put_wallpaper id
  simp only [setSlot, Map.change, hm, Option.getD_some]
  exact (hput.inEntry hm).inMember (nodup_written hd) (by rfl)

theorem put_instances (hd : d.WellFormed) (hw : d.widgets.get? widget = some w)
    {instances : Map Blob} (hi : w.instances = some instances) (left : Map Blob) :
    Json.Put "instances" (left.toJson .ofMap).sorted ["byWidget", widget] d.toValue
      { d with widgets := d.widgets.insert widget { w with instances := some left } }.toValue := by
  have hput := (hd.parts.1.get? hw).put_instances hi left
  exact (hput.inEntry hw).inMember (nodup_written hd) (by rfl)

end Document

end ShellSettings
