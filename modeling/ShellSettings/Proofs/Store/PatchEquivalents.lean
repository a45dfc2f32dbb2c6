import ShellSettings.Proofs.Document.Placing
import ShellSettings.Proofs.Store.CollectionDeletion
import ShellSettings.Proofs.Store.PatchLaws
import ShellSettings.Proofs.Store.Supplied

/-!
# Edits as patches

Four edits change one field of the document. Each has a patch that gives the member of
that field as it is to be: the document read from it is the one that the edit builds,
and where the patch drops a collection the slots that it clears are those of the edit
(`Store.Supplied.edits_agree_with_patches`).
-/

namespace ShellSettings

def Json.giving (key : String) (x : Json) : Json := .obj [(key, x.sorted)]

-- ---------------------------------------------------------------------------
-- Collections of distinct ids
-- ---------------------------------------------------------------------------

namespace Document

def collectionsWithout (d : Document) (id : String) : List Collection :=
  d.collections.filter (·.id != id)

def collectionsWith (d : Document) (id : String) (resources : List String) : List Collection :=
  d.collections.map fun c => if c.id = id then { c with resources } else c

variable {d next : Document} {c : String} {cs : List Collection}

theorem id_ne_of_mem {e e' : Collection} (h : ((e :: cs).map (·.id)).Nodup) (he' : e' ∈ cs) :
    e'.id ≠ e.id :=
  fun heq => (List.nodup_cons.mp h).1 (List.mem_map.mpr ⟨e', he', heq⟩)

theorem eraseP_eq_filter (h : (cs.map (·.id)).Nodup) :
    cs.eraseP (·.id == c) = cs.filter (·.id != c) := by
  induction cs with
  | nil => rfl
  | cons e cs ih =>
    by_cases he : e.id = c
    · subst he
      have hothers : cs.filter (·.id != e.id) = cs :=
        List.filter_eq_self.mpr fun _ he' => bne_iff_ne.mpr (id_ne_of_mem h he')
      simp [hothers]
    · simp [he, ih (List.nodup_cons.mp h).2]

theorem changeFirst_eq_map {f : Collection → Collection} (h : (cs.map (·.id)).Nodup) :
    Store.changeFirst (·.id == c) f cs = cs.map fun e => if e.id = c then f e else e := by
  induction cs with
  | nil => rfl
  | cons e cs ih =>
    by_cases he : e.id = c
    · subst he
      have hothers : cs.map (fun e' => if e'.id = e.id then f e' else e') = cs :=
        (List.map_congr_left fun _ he' => if_neg (id_ne_of_mem h he')).trans (List.map_id _)
      simp [Store.changeFirst, hothers]
    · simp [Store.changeFirst, he, ih (List.nodup_cons.mp h).2]

-- ---------------------------------------------------------------------------
-- Settling
-- ---------------------------------------------------------------------------

/-- Of distinct ids, a patch that drops one clears the slots of this one alone. -/
theorem settled_without (hc : d.hasCollection c = true)
    (distinct : (d.collections.map (·.id)).Nodup) :
    d.settled { d with collections := d.collectionsWithout c } =
      (d.withoutFirst c).normalize := by
  have hgone : (d.settling { d with collections := d.collectionsWithout c }).gone = (· == c) := by
    funext id
    rw [Bool.eq_iff_iff, gone_settling, ← Bool.not_eq_true, hasCollection_iff, hasCollection_iff]
    constructor
    · rintro ⟨⟨e, he, rfl⟩, hnone⟩
      refine beq_iff_eq.mpr (not_not.mp fun hne => hnone ⟨e, ?_, rfl⟩)
      exact List.mem_filter.mpr ⟨he, bne_iff_ne.mpr hne⟩
    · -- Every collection of the id is dropped, so none is left to keep its slots.
      intro hid
      obtain rfl := beq_iff_eq.mp hid
      refine ⟨hasCollection_iff.mp hc, ?_⟩
      rintro ⟨e, he, hid⟩
      exact bne_iff_ne.mp (List.mem_filter.mp he).2 hid
  rw [withoutFirst, eraseP_eq_filter distinct, ← hgone]
  rfl

theorem hasCollection_collectionsWith {id : String} {resources : List String} :
    { d with collections := d.collectionsWith c resources }.hasCollection id =
      d.hasCollection id := by
  have hid : ∀ e : Collection, (if e.id = c then { e with resources } else e).id = e.id :=
    fun e => by split <;> rfl
  rw [Bool.eq_iff_iff, hasCollection_iff, hasCollection_iff]
  simp [collectionsWith, hid]

end Document

-- ---------------------------------------------------------------------------
-- Edits and patches
-- ---------------------------------------------------------------------------

namespace Store

variable {s : Store} {l : Loaded} {d next : Document} {p : Path} {v x : Json}
  {key operation : String}

/-- Both fail, or both succeed and leave the same documents and revision. -/
def SameEffect (a b : Except StoreError Store) : Prop :=
  a.toOption.map (·.loaded) = b.toOption.map (·.loaded)

theorem SameEffect.exists_ok {t : Store} {b : Except StoreError Store} (h : SameEffect (.ok t) b) :
    ∃ u, b = .ok u ∧ u.loaded = t.loaded := by
  cases b with
  | error e => cases h
  | ok u => exact ⟨u, rfl, (Option.some.inj h).symm⟩

theorem patched_of_put (hnext : next.WellFormed)
    (h : Json.Put key x.sorted p.keys d.toValue next.toValue) :
    patched d p (.giving key x) = .ok next := by
  obtain ⟨old, hat, hreplace⟩ := h.replace?
  have hmerge : Blob.merge (Map.ofList old.entries) (Map.ofList [(key, x.sorted)]) =
      old.insert key x.sorted := by
    rw [Map.ofList_entries]
    rfl
  have hread : Document.ofJson? next.toValue = .ok next := Document.ofJson?_toValue hnext
  simp only [Json.ofMap] at hat
  simp only [patched, Json.giving, Path.resolve, Path.replace?, hat, hmerge, hreplace, hread]

theorem loaded_commit (hl : s.loaded = some l) :
    (s.commit operation d).toOption.map (·.loaded) =
      if d.normalize.dangling s.catalog = [] then some (some (l.committed d.normalize))
      else none := by
  cases h : s.commit operation d with
  | ok t =>
    obtain ⟨hdangling, l', hl', rfl⟩ := commit_eq_ok.mp h
    cases hl.symm.trans hl'
    simp [Except.toOption, hdangling]
  | error e =>
    have hdangling : d.normalize.dangling s.catalog ≠ [] := fun hnone => by
      cases h.symm.trans (commit_eq_ok.mpr ⟨hnone, l, hl, rfl⟩)
    simp [Except.toOption, hdangling]

theorem patchAt_of_patched (hl : s.loaded = some l) (h : patched l.current p v = .ok next) :
    (s.patchAt p v).toOption.map (·.loaded) =
      (s.commit "patch" (l.current.settled next)).toOption.map (·.loaded) := by
  simp only [patchAt, get_of_loaded hl, ok_bind, h]
  change Option.map _ (Except.toOption (s.commit "patch" (l.current.settled next) >>= _)) = _
  cases s.commit "patch" (l.current.settled next) with
  | error e => rfl
  | ok t =>
    -- After the commit only the flag for a restart is at stake.
    rw [ok_bind]
    split <;> rfl

/-- A patch does what the commit of a document does, if it is read as that document settled. -/
theorem sameEffect_patchAt (hl : s.loaded = some l) (h : patched l.current p v = .ok next)
    (hsettled : l.current.settled next = d.normalize) :
    SameEffect (s.commit operation d) (s.patchAt p v) := by
  rw [SameEffect, patchAt_of_patched hl h, loaded_commit hl, loaded_commit hl, hsettled,
    Document.normalized_normalize]

-- ---------------------------------------------------------------------------
-- Each edit
-- ---------------------------------------------------------------------------

section Edits

variable {c widget id : String} (hl : s.loaded = some l) (hd : l.current.WellFormed)

include hl hd

theorem sameEffect_deleteCollection (hc : l.current.hasCollection c = true)
    (distinct : (l.current.collections.map (·.id)).Nodup) :
    SameEffect ((s.deleteCollection c).map (·.1)) (s.patchAt .root
      (.giving "collections" (.arr ((l.current.collectionsWithout c).map Collection.toJson)))) := by
  have hcommit : (s.deleteCollection c).map (·.1) =
      s.commit "delete_collection" (l.current.withoutFirst c) := by
    rw [deleteCollection_eq_commit hl hc]
    cases s.commit "delete_collection" (l.current.withoutFirst c) <;> rfl
  have hnext := hd.withCollections fun e (he : e ∈ l.current.collectionsWithout c) =>
    hd.parts.2.2.1 e (List.mem_filter.mp he).1
  rw [hcommit]
  exact sameEffect_patchAt hl (patched_of_put hnext (Document.put_collections hd _))
    (Document.settled_without hc distinct)

theorem sameEffect_setResources (resources : List String) (hc : l.current.hasCollection c = true)
    (distinct : (l.current.collections.map (·.id)).Nodup) :
    SameEffect (s.setResources c resources) (s.patchAt .root (.giving "collections"
      (.arr ((l.current.collectionsWith c resources).map Collection.toJson)))) := by
  have hnext : ∀ e ∈ l.current.collectionsWith c resources, e.WellFormed := by
    refine List.forall_mem_map.mpr fun e he => ?_
    have hwell := hd.parts.2.2.1 e he
    split
    · exact hwell.congr rfl
    · exact hwell
  simp only [setResources, get_of_loaded hl, ok_bind, hc, if_true,
    Document.changeFirst_eq_map distinct]
  exact sameEffect_patchAt hl (patched_of_put (hd.withCollections hnext)
    (Document.put_collections hd _))
    (Document.settled_eq_normalize fun _ => Document.hasCollection_collectionsWith)

theorem sameEffect_deleteInstance {w : Widget} {instances : Map Blob}
    (hw : l.current.widgets.get? widget = some w) (hi : w.instances = some instances)
    (hid : instances.contains id = true) :
    SameEffect (s.deleteInstance widget id) (s.patchAt ⟨["byWidget", widget]⟩
      (.giving "instances" ((instances.erase id).toJson .ofMap))) := by
  have hhas : w.hasInstance id = true := by simpa [Widget.hasInstance, Widget.instance?, hi]
  have hwidget := hd.parts.1.get? hw
  have hnext : { w with instances := some (instances.erase id) }.WellFormed := by
    refine hwidget.withInstances fun m hm => ?_
    cases hm
    exact ((Widget.wellFormed_iff.mp hwidget).1 instances hi).erase
  simp only [deleteInstance, get_of_loaded hl, ok_bind, hw, hhas, if_true, hi, Option.map_some]
  exact sameEffect_patchAt hl (patched_of_put (hd.withWidgets (hd.parts.1.insert hnext))
    (Document.put_instances hd hw hi _)) (Document.settled_eq_normalize fun _ => rfl)

theorem sameEffect_setWallpaper {slot : Slot} {wallpaper : Option String}
    (hput : Json.Put "wallpaperCollection" (Json.ofOption wallpaper).sorted p.keys
      l.current.toValue (l.current.setSlot slot wallpaper).toValue)
    (hc : ∀ c, wallpaper = some c → l.current.hasCollection c = true) :
    SameEffect (s.setWallpaper slot wallpaper)
      (s.patchAt p (.giving "wallpaperCollection" (.ofOption wallpaper))) := by
  have hknown : wallpaper.filter (fun id => !l.current.hasCollection id) = none := by
    refine Option.filter_eq_none_iff.mpr fun id hid => ?_
    simp [hc id hid]
  have hids : ∀ id, (l.current.setSlot slot wallpaper).hasCollection id =
      l.current.hasCollection id := by
    intro id
    cases slot <;> rfl
  simp only [setWallpaper, get_of_loaded hl, ok_bind, hknown]
  exact sameEffect_patchAt hl (patched_of_put hd.setSlot hput) (Document.settled_eq_normalize hids)

end Edits

/-- In a store that a document was loaded into which was read from a value, whatever was done to it
since, an edit has the same effect as the patch that gives the member that it changes. -/
theorem Supplied.edits_agree_with_patches {start : Store} {v₀ : Json} {d₀ : Document}
    {taken : List Document} (decoded : Document.ofJson? v₀ = .ok d₀)
    (run : Supplied (start.install d₀).1 taken s) (hl : s.loaded = some l)
    (distinct : (l.current.collections.map (·.id)).Nodup) :
    (∀ c, l.current.hasCollection c = true →
      SameEffect ((s.deleteCollection c).map (·.1)) (s.patchAt .root (.giving "collections"
        (.arr ((l.current.collectionsWithout c).map Collection.toJson))))) ∧
    (∀ widget w instances id, l.current.widgets.get? widget = some w →
      w.instances = some instances → instances.contains id = true →
      SameEffect (s.deleteInstance widget id) (s.patchAt ⟨["byWidget", widget]⟩
        (.giving "instances" ((instances.erase id).toJson .ofMap)))) ∧
    (∀ c resources, l.current.hasCollection c = true →
      SameEffect (s.setResources c resources) (s.patchAt .root (.giving "collections"
        (.arr ((l.current.collectionsWith c resources).map Collection.toJson))))) ∧
    ∀ wallpaper, (∀ c, wallpaper = some c → l.current.hasCollection c = true) →
      SameEffect (s.setWallpaper .global wallpaper)
        (s.patchAt .root (.giving "wallpaperCollection" (.ofOption wallpaper))) ∧
      ∀ monitor, l.current.monitors.contains monitor = true →
        SameEffect (s.setWallpaper (.monitor monitor) wallpaper)
          (s.patchAt ⟨["monitors", monitor]⟩
            (.giving "wallpaperCollection" (.ofOption wallpaper))) := by
  have hd : l.current.WellFormed :=
    ((run.readable (readable_install start (Document.wellFormed_of_read decoded))).1 l hl).1
  refine ⟨fun c hc => sameEffect_deleteCollection hl hd hc distinct,
    fun widget w instances id hw hi hid => sameEffect_deleteInstance hl hd hw hi hid,
    fun c resources hc => sameEffect_setResources hl hd resources hc distinct,
    fun wallpaper hc => ⟨?_, fun monitor hm => ?_⟩⟩
  · exact sameEffect_setWallpaper hl hd (Document.put_wallpaper hd wallpaper) hc
  · obtain ⟨m, hm⟩ := Option.isSome_iff_exists.mp hm
    exact sameEffect_setWallpaper hl hd (Document.put_monitorWallpaper hd hm wallpaper) hc

def fjordsOnLeft : Document where
  widgets := Map.ofList [("dock", { instances := some (Map.ofList [("a", ∅)]) })]
  monitors := Map.ofList [("left", { wallpaper := some "fjords" })]
  collections := [{ id := "fjords", name := "Fjords" }]

/-- The slot of the monitor goes with the collection, the container with the instance. -/
theorem edits_agree_with_patches_emptied :
    let s := (Store.install { ids := ⟨fun _ => "", 0⟩ } fjordsOnLeft).1
    (∃ t u d, s.deleteCollection "fjords" = .ok (t, [.slot (.monitor "left") "fjords"]) ∧
      t.get = .ok d ∧ d.slot (.monitor "left") = none ∧
      s.patchAt .root (.giving "collections" (.arr [])) = .ok u ∧ u.loaded = t.loaded) ∧
    ∃ t u d, s.deleteInstance "dock" "a" = .ok t ∧
      t.get = .ok d ∧ d.widgets = Map.ofList [("dock", {})] ∧
      s.patchAt ⟨["byWidget", "dock"]⟩ (.giving "instances" (.obj [])) = .ok u ∧
      u.loaded = t.loaded := by
  intro s
  have decoded : Document.ofJson? fjordsOnLeft.toValue = .ok fjordsOnLeft := rfl
  obtain ⟨fjords, dock, -⟩ :=
    Supplied.edits_agree_with_patches decoded .start (s := s) rfl (by decide)
  constructor
  · obtain ⟨t, ht, d, hd, hslot⟩ : ∃ t, s.deleteCollection "fjords" =
        .ok (t, [.slot (.monitor "left") "fjords"]) ∧
        ∃ d, t.get = .ok d ∧ d.slot (.monitor "left") = none := ⟨_, rfl, _, rfl, rfl⟩
    have same := fjords "fjords" rfl
    rw [ht] at same
    obtain ⟨u, hu, hloaded⟩ := same.exists_ok
    exact ⟨t, u, d, ht, hd, hslot, hu, hloaded⟩
  · obtain ⟨t, ht, d, hd, hwidgets⟩ : ∃ t, s.deleteInstance "dock" "a" = .ok t ∧
        ∃ d, t.get = .ok d ∧ d.widgets = Map.ofList [("dock", {})] := ⟨_, rfl, _, rfl, rfl⟩
    have same := dock "dock" _ _ "a" rfl rfl rfl
    rw [ht] at same
    obtain ⟨u, hu, hloaded⟩ := same.exists_ok
    exact ⟨t, u, d, ht, hd, hwidgets, hu, hloaded⟩

end Store

end ShellSettings
