import ShellSettings.Proofs.Document.EditLaws
import ShellSettings.Proofs.Document.UnknownMembers

/-!
# The parts of a document

What stands at a path of a document is read by one of a few readers, and the key
that comes next decides which one reads further. So a document is read and written
again key by key: what is written under a key depends on what stood there and on
nothing else (`Part.rewrites`). Records that are read keep what they do not know and
write all their other members, and a widget leaves out what says nothing.
-/

namespace ShellSettings

-- ---------------------------------------------------------------------------
-- Written forms
-- ---------------------------------------------------------------------------

theorem Json.sorted_ofOption (id : Option String) : (ofOption id).sorted = ofOption id := by
  cases id <;> rfl

theorem Json.sorted_ofStrings (xs : List String) : (ofStrings xs).sorted = ofStrings xs := by
  simp [ofStrings, sorted, sortedItems_eq_map]

theorem Map.toJson_map {α β : Type} (write : β → Json) (g : α → β) (m : Map α) :
    (m.map fun _ => g).toJson write = m.toJson fun a => write (g a) := by
  simp [toJson, map]

theorem Map.toJson_id (b : Blob) : b.toJson id = .ofMap b := by simp [toJson, Json.ofMap]

-- ---------------------------------------------------------------------------
-- What is done between reading and writing
-- ---------------------------------------------------------------------------

/-- Slots are cleared and empty containers dropped after a document was read. -/
structure Finish where
  -- The collections to which no slot shall point.
  gone : String → Bool := fun _ => false
  -- Whether empty containers of instances are dropped.
  tidy : Bool := false

namespace Finish

def plain : Finish := {}

variable (f : Finish)

def slot (id : Option String) : Option String := id.filter (fun id => !f.gone id)

def instances (m : Option (Map Blob)) : Option (Map Blob) :=
  if f.tidy then m.filter (fun m => !m.isEmpty) else m

def widget (w : Widget) : Widget := { w with instances := f.instances w.instances }

def workspace (w : Workspace) : Workspace := { w with wallpaper := f.slot w.wallpaper }

def monitor (m : Monitor) : Monitor :=
  { m with
    wallpaper := f.slot m.wallpaper
    workspaces := m.workspaces.map fun _ => f.workspace }

def document (d : Document) : Document :=
  { d with
    widgets := d.widgets.map fun _ => f.widget
    monitors := d.monitors.map fun _ => f.monitor
    wallpaper := f.slot d.wallpaper }

theorem document_tidy (gone : String → Bool) (d : Document) :
    document ⟨gone, true⟩ d = (d.clearSlots gone).normalize := rfl

theorem instances_some (m : Map Blob) :
    f.instances (some m) = if f.tidy && m.isEmpty then none else some m := by
  cases htidy : f.tidy <;> cases hempty : m.isEmpty <;>
    simp [instances, htidy, hempty, Option.filter]

theorem isEmpty_of_instances {o : Option (Map Blob)} {m : Map Blob}
    (h : f.instances o = some m) (htidy : f.tidy = true) : m.isEmpty = false := by
  rw [instances, if_pos htidy] at h
  simpa using (Option.filter_eq_some_iff.mp h).2

theorem slot_plain (id : Option String) : plain.slot id = id := by
  cases id <;> rfl

theorem document_plain (d : Document) : plain.document d = d := by
  have hworkspace : ∀ w : Workspace, plain.workspace w = w := fun w => by
    simp [workspace, slot_plain]
  have hmonitor : ∀ m : Monitor, plain.monitor m = m := fun m => by
    simp [monitor, slot_plain, Map.map_eq_self, hworkspace]
  have hwidget : ∀ w : Widget, plain.widget w = w := fun _ => rfl
  simp [document, slot_plain, Map.map_eq_self, hmonitor, hwidget]

end Finish

-- ---------------------------------------------------------------------------
-- Parts
-- ---------------------------------------------------------------------------

/-- Parts of fixed form that hold no members. -/
inductive Leaf where
  | text
  | texts
  | flag
  | optionalFlag
  | collections
  | performance
  | desktops
  | channel

/-- What a value in a document is read as. -/
inductive Part where
  | document
  | updater
  | widgets
  | widget
  | instances
  | monitors
  | monitor
  | workspaces
  | workspace
  -- Per widget, the settings that differ on a monitor.
  | overrides
  -- An object that nobody looks into.
  | blob
  | slot
  | leaf (l : Leaf)
  -- Any value.
  | free
  -- What is read but not written under its key.
  | dropped

namespace Part

def child : Part → String → Part
  | .document, key =>
    match key with
    | "byWidget" => .widgets
    | "monitors" => .monitors
    | "collections" => .leaf .collections
    | "wallpaperCollection" => .slot
    | "activeThemes" => .leaf .texts
    | "activeIconPacks" => .leaf .texts
    | "language" => .leaf .text
    | "dateFormat" => .leaf .text
    | "shortcuts" => .blob
    | "performanceMode" => .leaf .performance
    | "virtualDesktopStrategy" => .leaf .desktops
    | "hardwareAcceleration" => .leaf .flag
    | "updater" => .updater
    | _ => .free
  | .updater, key =>
    match key with
    | "channel" => .leaf .channel
    | _ => .free
  | .widgets, _ => .widget
  | .widget, key =>
    match key with
    | "enabled" => .leaf .optionalFlag
    | "instances" => .instances
    | _ => .free
  | .monitors, _ => .monitor
  | .monitor, key =>
    match key with
    | "byWidget" => .overrides
    | "byWorkspace" => .workspaces
    -- Another name of the field before, under which nothing is written.
    | "workspaces" => .dropped
    | "wallpaperCollection" => .slot
    | _ => .free
  | .workspaces, _ => .workspace
  | .workspace, key =>
    match key with
    | "wallpaperCollection" => .slot
    | _ => .free
  | .instances, _ | .overrides, _ => .blob
  | .blob, _ | .free, _ => .free
  | .slot, _ | .leaf _, _ | .dropped, _ => .dropped

def along : Part → List String → Part
  | P, [] => P
  | P, key :: keys => (P.child key).along keys

/-- The keys under which a part always writes something. -/
def fields : Part → List String
  | .document => (Document.record (σ := Json)).fields
  | .updater => (Updater.record (σ := Json)).fields
  | .monitor => (Monitor.record (σ := Json)).fields
  | .workspace => (Workspace.record (σ := Json)).fields
  | _ => []

end Part

def Leaf.rewrite : Leaf → Json → Read (Option Json)
  | .text, v => (fun s => some (.str s)) <$> Read.text v
  | .texts, v => (fun ids => some (.ofStrings ids)) <$> Read.list Read.text v
  | .flag, v => (fun b => some (.bool b)) <$> Read.bool v
  | .optionalFlag, v => (fun b => b.map .bool) <$> Read.optional Read.bool v
  | .collections, v =>
    (fun cs => some (Json.arr (cs.map Collection.toJson)).sorted) <$> Read.list Collection.read v
  | .performance, v => (fun p => some (.str p.name)) <$> Read.name PerformanceMode.table v
  | .desktops, v => (fun d => some (.str d.name)) <$> Read.name DesktopStrategy.table v
  | .channel, v => (fun c => some (.str c.name)) <$> Read.name UpdateChannel.table v

/-- What is written, if anything, for a value that is read as a part of a document. -/
def Part.rewrite (f : Finish) : Part → Json → Read (Option Json)
  | .document, v => (fun d => some (f.document d).toValue) <$> Document.read v
  | .updater, v => (fun u => some u.toJson.sorted) <$> Updater.read v
  | .widgets, v =>
    (fun m => some (m.toJson fun w => (f.widget w).toJson).sorted) <$> Read.map Widget.read v
  | .widget, v => (fun w => some (f.widget w).toJson.sorted) <$> Widget.read v
  | .instances, v =>
    (fun m => (f.instances m).map fun m => (m.toJson .ofMap).sorted) <$>
      Read.optional (Read.map Read.blob) v
  | .monitors, v =>
    (fun m => some (m.toJson fun m => (f.monitor m).toJson).sorted) <$> Read.map Monitor.read v
  | .monitor, v => (fun m => some (f.monitor m).toJson.sorted) <$> Monitor.read v
  | .workspaces, v =>
    (fun m => some (m.toJson fun w => (f.workspace w).toJson).sorted) <$> Read.map Workspace.read v
  | .workspace, v => (fun w => some (f.workspace w).toJson.sorted) <$> Workspace.read v
  | .overrides, v => (fun m => some (m.toJson .ofMap).sorted) <$> Read.map Read.blob v
  | .blob, v => (fun b => some (Json.ofMap b).sorted) <$> Read.blob v
  | .slot, v => (fun id => some (.ofOption (f.slot id))) <$> Read.optional Read.text v
  | .leaf l, v => l.rewrite v
  | .free, v => some <$> Read.json v
  | .dropped, _ => .ok none

namespace Part

variable {P E : Part} {f : Finish} {v w x y : Json} {r : Option Json} {key : String}

/-- What is written for a value, key by key. -/
structure Rewrites (P : Part) (f : Finish) (v : Json) (r : Option Json) : Prop where
  -- The last member under a key is written as a part of its own.
  there : ∀ {key x}, v.last? key = some x →
    (P.child key).rewrite f x = .ok (r.bind (·.get? key))
  missing : ∀ {key}, v.last? key = none → key ∉ P.fields → r.bind (·.get? key) = none
  -- A field that is missing is written with its default.
  field : ∀ {key}, key ∈ P.fields → (r.bind (·.get? key)).isSome

theorem rewrite_free : free.rewrite f v = .ok (some v.sorted) := rfl

-- ---------------------------------------------------------------------------
-- Maps
-- ---------------------------------------------------------------------------

theorem rewrites_map {α : Type} {read : Json → Read α} {write : α → Json} {m : Map α}
    (hchild : ∀ key, P.child key = E) (hfields : P.fields = [])
    (hE : ∀ x, E.rewrite f x = (fun a => some (write a).sorted) <$> read x)
    (h : Read.map read v = .ok m) : P.Rewrites f v (some (m.toJson write).sorted) where
  there {key x} hx := by
    have hrel := Read.rel_of_map h key
    rw [hx] at hrel
    rw [hchild, hE, Option.bind_some, Map.get?_toJson]
    generalize m.get? key = got at hrel
    cases hrel with
    | some hread => rw [hread]; rfl
  missing {key} hx _ := by
    have hrel := Read.rel_of_map h key
    rw [hx] at hrel
    rw [Option.bind_some, Map.get?_toJson]
    generalize m.get? key = got at hrel
    cases hrel
    rfl
  field {key} hkey := by simp [hfields] at hkey

-- ---------------------------------------------------------------------------
-- Records
-- ---------------------------------------------------------------------------

section Record

variable {μ : Type} {r : Record Json μ} {named : μ → String} {write : μ → Option (String × Json)}

/-- A part is written from the members of a record: each member from what is read under its own
key, and what the record does not know as it is. -/
structure OfRecord (P : Part) (f : Finish) (r : Record Json μ) (named : μ → String)
    (write : μ → Option (String × Json)) : Prop where
  name : ∀ {m e}, write m = some e → e.1 = named m
  -- A field is written as what its value alone is written as.
  field : ∀ {key x m}, key ∈ r.fields → r.read key x = .ok m →
    (P.child key).rewrite f x = .ok ((write m).map (·.2.sorted))
  unknown : ∀ {key}, r.field? key = none → P.child key = .free
  renamed : ∀ {key field}, r.field? key = some field → field ≠ key → P.child key = .dropped
  aliases : ∀ a ∈ r.aliases, a.2 ∈ r.fields
  always : ∀ key ∈ P.fields, key ∈ r.fields

/-- The members that a record was read to: for each field one, and what it does not know. -/
structure Holds (P : Part) (r : Record Json μ) (named : μ → String)
    (write : μ → Option (String × Json)) (v : Json) (ms : List μ) (extra : Blob) : Prop where
  names : ms.map named = r.fields
  read : ∀ m ∈ ms, ∀ x, v.last? (named m) = some x → r.read (named m) x = .ok m
  missing : ∀ m ∈ ms, v.last? (named m) = none → named m ∉ P.fields → write m = none
  always : ∀ m ∈ ms, named m ∈ P.fields → (write m).isSome
  rest : ∀ key, r.field? key = none → extra.get? key = v.sorted.get? key
  unknown : ∀ e ∈ extra.entries, r.field? e.1 = none

section Written

variable {ms : List μ} {extra : Blob} {m : μ} {e : String × Json}

/-- The object that holds what is written for the members, and the rest as it is. -/
def written (write : μ → Option (String × Json)) (ms : List μ) (extra : Blob) : Json :=
  (Json.obj (ms.filterMap write ++ extra.entries)).sorted

theorem Holds.mem_fields (h : P.Holds r named write v ms extra) (hm : m ∈ ms) :
    named m ∈ r.fields :=
  h.names ▸ List.mem_map_of_mem hm

theorem Holds.exists_named (h : P.Holds r named write v ms extra) {field : String}
    (hfield : field ∈ r.fields) : ∃ m ∈ ms, named m = field :=
  List.mem_map.mp (h.names ▸ hfield)

theorem OfRecord.sublist_fields (hP : P.OfRecord f r named write) :
    ((ms.filterMap write).map (·.1)).Sublist (ms.map named) := by
  induction ms with
  | nil => exact .refl _
  | cons m ms ih =>
    cases hw : write m with
    | none => simpa [List.filterMap_cons, hw] using ih.cons _
    | some e => simpa [List.filterMap_cons, hw, hP.name hw] using ih

theorem OfRecord.nodup_keys (hP : P.OfRecord f r named write)
    (h : P.Holds r named write v ms extra) (hnodup : r.fields.Nodup) :
    ((ms.filterMap write ++ extra.entries).map (·.1)).Nodup := by
  rw [List.map_append]
  exact Record.nodup_append_keys extra hnodup (h.names ▸ hP.sublist_fields) h.unknown

theorem OfRecord.get?_of_write (hP : P.OfRecord f r named write)
    (h : P.Holds r named write v ms extra) (hnodup : r.fields.Nodup) (hm : m ∈ ms)
    (hw : write m = some e) : (written write ms extra).get? (named m) = some e.2.sorted := by
  obtain ⟨k, x⟩ := e
  obtain rfl : k = named m := hP.name hw
  exact Json.get?_sorted_of_mem (hP.nodup_keys h hnodup)
    (List.mem_append_left _ (List.mem_filterMap.mpr ⟨m, hm, hw⟩))

theorem OfRecord.get?_of_rest (hP : P.OfRecord f r named write)
    (h : P.Holds r named write v ms extra) (hnodup : r.fields.Nodup)
    (hx : extra.get? key = some x) : (written write ms extra).get? key = some x.sorted :=
  Json.get?_sorted_of_mem (hP.nodup_keys h hnodup)
    (List.mem_append_right _ (Map.mem_entries.mpr hx))

theorem OfRecord.get?_eq_none (hP : P.OfRecord f r named write)
    (hms : ∀ m ∈ ms, named m = key → write m = none) (hextra : extra.get? key = none) :
    (written write ms extra).get? key = none := by
  rw [written, Json.get?_sorted, Option.map_eq_none_iff, Option.eq_none_iff_forall_ne_some]
  intro x hx
  obtain ⟨_, hobj, hmem⟩ := Json.exists_of_last? hx
  cases hobj
  rcases List.mem_append.mp hmem with hmem | hmem
  · obtain ⟨m, hm, hw⟩ := List.mem_filterMap.mp hmem
    rw [hms m hm (hP.name hw).symm] at hw
    cases hw
  · rw [Map.mem_entries.mp hmem] at hextra
    cases hextra

theorem Holds.get?_rest_eq_none (h : P.Holds r named write v ms extra) {field : String}
    (hfield : r.field? key = some field) : extra.get? key = none := by
  refine Option.eq_none_iff_forall_ne_some.mpr fun x hx => ?_
  rw [h.unknown _ (Map.mem_entries.mpr hx)] at hfield
  cases hfield

theorem OfRecord.rewrites (hP : P.OfRecord f r named write)
    (h : P.Holds r named write v ms extra) (hnodup : r.fields.Nodup) :
    P.Rewrites f v (some (written write ms extra)) where
  there {key x} hx := by
    rw [Option.bind_some]
    cases hfield : r.field? key with
    | none =>
      have hextra : extra.get? key = some x.sorted := by
        rw [h.rest key hfield, Json.get?_sorted, hx]
        rfl
      rw [hP.unknown hfield, rewrite_free, hP.get?_of_rest h hnodup hextra, Json.sorted_sorted]
    | some field =>
      have hrest := h.get?_rest_eq_none hfield
      by_cases hsame : field = key
      · subst hsame
        obtain ⟨m, hm, rfl⟩ := h.exists_named (Record.mem_fields_of_field? hP.aliases hfield)
        have hread := h.read m hm x hx
        rw [hP.field (h.mem_fields hm) hread]
        cases hw : write m with
        | some e => rw [hP.get?_of_write h hnodup hm hw, Option.map_some]
        | none =>
          -- A second member of that name would have been read from the same value.
          have hms : ∀ m' ∈ ms, named m' = named m → write m' = none := by
            intro m' hm' hkey
            have hread' := h.read m' hm' x (hkey ▸ hx)
            rw [hkey, hread] at hread'
            exact Except.ok.inj hread' ▸ hw
          rw [hP.get?_eq_none hms hrest, Option.map_none]
      · -- Under another name of a field nothing is written.
        have hms : ∀ m ∈ ms, named m = key → write m = none := by
          rintro m hm rfl
          have hown : r.field? (named m) = some (named m) := by
            simp [Record.field?, h.mem_fields hm]
          exact absurd (Option.some.inj (hfield.symm.trans hown)) hsame
        rw [hP.renamed hfield hsame, hP.get?_eq_none hms hrest]
        rfl
  missing {key} hx hkey := by
    have hrest : extra.get? key = none := by
      cases hfield : r.field? key with
      | none => rw [h.rest key hfield, Json.get?_sorted, hx]; rfl
      | some field => exact h.get?_rest_eq_none hfield
    refine hP.get?_eq_none (fun m hm hname => ?_) hrest
    subst hname
    exact h.missing m hm hx hkey
  field {key} hkey := by
    obtain ⟨m, hm, rfl⟩ := h.exists_named (hP.always key hkey)
    obtain ⟨e, hw⟩ := Option.isSome_iff_exists.mp (h.always m hm hkey)
    rw [Option.bind_some, hP.get?_of_write h hnodup hm hw]
    rfl

end Written

end Record

end Part

-- ---------------------------------------------------------------------------
-- Each record
-- ---------------------------------------------------------------------------

variable {f : Finish} {v : Json}

namespace Updater

theorem Member.key_of_read {field : String} {m : Member} (h : Member.read field v = .ok m) :
    m.write.1 = field := by
  unfold Member.read at h
  split at h
  all_goals
    obtain ⟨_, -, rfl⟩ := map_eq_ok h
    rfl

theorem gives {β : Type} {field : String} {sel : Member → Option β}
    (hkey : ∀ m b, sel m = some b → m.write.1 = field)
    (hextra : ∀ key x, sel (.extra key x) = none) : (record (σ := Json)).Gives field sel where
  field hm hf := (Member.key_of_read hm).symm.trans (hkey _ _ hf)
  other h := by
    cases h
    exact List.forall_mem_singleton.mpr (hextra _ _)

theorem ofRecord : Part.updater.OfRecord f (record (σ := Json)) (fun m => m.write.1)
    fun m => some m.write where
  name h := by
    cases h
    rfl
  field {key x m} hkey h := by
    simp only [record, List.mem_cons, List.not_mem_nil, or_false] at hkey
    subst hkey
    obtain ⟨a, ha, rfl⟩ := map_eq_ok h
    simp [Part.child, Part.rewrite, Leaf.rewrite, ha, Member.write, Json.sorted]
  unknown {key} h := by
    simp only [Part.child]
    split <;> first | rfl | cases h
  renamed h hne := absurd (Record.eq_of_field? rfl h) hne
  aliases := by simp [record]
  always _ h := h

theorem holds {u : Updater} (h : read v = .ok u) : Part.updater.Holds (record (σ := Json))
    (fun m => m.write.1) (fun m => some m.write) v [.channel u.channel] u.extra where
  names := rfl
  read := by
    obtain ⟨ms, hms, h⟩ := bind_eq_ok h
    cases h
    simp only [List.forall_mem_cons]
    refine ⟨(gives ?_ fun _ _ => rfl).read_member .channel hms (fun _ => rfl) (fun _ => rfl) rfl,
      nofun⟩
    exact fun m _ h => by cases m <;> cases h; rfl
  missing _ hm _ hkey := absurd (List.mem_map_of_mem (f := fun m => m.write.1) hm) hkey
  always _ _ _ := rfl
  rest key := extra_of_read h
  unknown e he := (wellFormed_of_read h (.extra e.1 e.2) (by simp [members, he])).1

theorem sorted_toJson (u : Updater) : u.toJson.sorted =
    Part.written (fun m : Member => some m.write) [.channel u.channel] u.extra := by
  simp [Part.written, toJson, members, Member.write, Function.comp_def]

end Updater

namespace Workspace

theorem Member.key_of_read {field : String} {m : Member} (h : Member.read field v = .ok m) :
    m.write.1 = field := by
  unfold Member.read at h
  split at h
  all_goals
    obtain ⟨_, -, rfl⟩ := map_eq_ok h
    rfl

theorem gives {β : Type} {field : String} {sel : Member → Option β}
    (hkey : ∀ m b, sel m = some b → m.write.1 = field)
    (hextra : ∀ key x, sel (.extra key x) = none) : (record (σ := Json)).Gives field sel where
  field hm hf := (Member.key_of_read hm).symm.trans (hkey _ _ hf)
  other h := by
    cases h
    exact List.forall_mem_singleton.mpr (hextra _ _)

def Member.finish (f : Finish) : Member → Member
  | .wallpaper id => .wallpaper (f.slot id)
  | m => m

theorem ofRecord : Part.workspace.OfRecord f (record (σ := Json)) (fun m => m.write.1)
    fun m => some (m.finish f).write where
  name {m _} h := by
    cases h
    cases m <;> rfl
  field {key x m} hkey h := by
    simp only [record, List.mem_cons, List.not_mem_nil, or_false] at hkey
    subst hkey
    obtain ⟨a, ha, rfl⟩ := map_eq_ok h
    simp [Part.child, Part.rewrite, ha, Member.finish, Member.write, Json.sorted_ofOption]
  unknown {key} h := by
    simp only [Part.child]
    split <;> first | rfl | cases h
  renamed h hne := absurd (Record.eq_of_field? rfl h) hne
  aliases := by simp [record]
  always _ h := h

theorem holds {w : Workspace} (h : read v = .ok w) : Part.workspace.Holds (record (σ := Json))
    (fun m => m.write.1) (fun m => some (m.finish f).write) v [.wallpaper w.wallpaper] w.extra where
  names := rfl
  read := by
    obtain ⟨ms, hms, h⟩ := bind_eq_ok h
    cases h
    simp only [List.forall_mem_cons]
    refine ⟨(gives ?_ fun _ _ => rfl).read_member .wallpaper hms (fun _ => rfl) (fun _ => rfl) rfl,
      nofun⟩
    exact fun m _ h => by cases m <;> cases h; rfl
  missing _ hm _ hkey := absurd (List.mem_map_of_mem (f := fun m => m.write.1) hm) hkey
  always _ _ _ := rfl
  rest key := extra_of_read h
  unknown e he := (wellFormed_of_read h (.extra e.1 e.2) (by simp [members, he])).1

theorem sorted_finish (w : Workspace) : (f.workspace w).toJson.sorted =
    Part.written (fun m : Member => some (m.finish f).write) [.wallpaper w.wallpaper] w.extra := by
  simp [Part.written, toJson, members, Finish.workspace, Member.finish, Member.write,
    Function.comp_def]

end Workspace

namespace Monitor

def Member.finish (f : Finish) : Member → Member
  | .workspaces m => .workspaces (m.map fun _ => f.workspace)
  | .wallpaper id => .wallpaper (f.slot id)
  | m => m

theorem ofRecord : Part.monitor.OfRecord f (record (σ := Json)) (fun m => m.write.1)
    fun m => some (m.finish f).write where
  name {m _} h := by
    cases h
    cases m <;> rfl
  field {key x m} hkey h := by
    simp only [record, List.mem_cons, List.not_mem_nil, or_false] at hkey
    rcases hkey with rfl | rfl | rfl
    all_goals
      obtain ⟨a, ha, rfl⟩ := map_eq_ok h
      simp [Part.child, Part.rewrite, ha, Member.finish, Member.write, Json.sorted_ofOption,
        Map.toJson_map]
  unknown {key} h := by
    simp only [Part.child]
    split <;> first | rfl | cases h
  renamed {key field} h hne := by
    unfold Record.field? at h
    split at h
    · exact absurd (Option.some.inj h).symm hne
    · obtain rfl : key = "workspaces" := by
        have hmem := Map.mem_of_lookup_eq_some h
        simp only [record, List.mem_singleton, Prod.mk.injEq] at hmem
        exact hmem.1
      rfl
  aliases := by simp [record]
  always _ h := h

theorem holds {m : Monitor} (h : read v = .ok m) : Part.monitor.Holds (record (σ := Json))
    (fun m => m.write.1) (fun m => some (m.finish f).write) v
    [.widgets m.widgets, .workspaces m.workspaces, .wallpaper m.wallpaper] m.extra where
  names := rfl
  read := by
    obtain ⟨ms, hms, h⟩ := bind_eq_ok h
    cases h
    simp only [List.forall_mem_cons]
    refine ⟨(gives ?_ fun _ _ => rfl).read_member .widgets hms (fun _ => rfl) (fun _ => rfl) rfl,
      (gives ?_ fun _ _ => rfl).read_member .workspaces hms (fun _ => rfl) (fun _ => rfl) rfl,
      (gives ?_ fun _ _ => rfl).read_member .wallpaper hms (fun _ => rfl) (fun _ => rfl) rfl,
      nofun⟩
    all_goals exact fun m _ h => by cases m <;> cases h; rfl
  missing _ hm _ hkey := absurd (List.mem_map_of_mem (f := fun m => m.write.1) hm) hkey
  always _ _ _ := rfl
  rest key := extra_of_read h
  unknown e he := (wellFormed_of_read h (.extra e.1 e.2) (by simp [members, he])).1

theorem sorted_finish (m : Monitor) : (f.monitor m).toJson.sorted =
    Part.written (fun m : Member => some (m.finish f).write)
      [.widgets m.widgets, .workspaces m.workspaces, .wallpaper m.wallpaper] m.extra := by
  simp [Part.written, toJson, members, Finish.monitor, Member.finish, Member.write,
    Function.comp_def]

end Monitor

namespace Document

def Member.finish (f : Finish) : Member → Member
  | .widgets m => .widgets (m.map fun _ => f.widget)
  | .monitors m => .monitors (m.map fun _ => f.monitor)
  | .wallpaper id => .wallpaper (f.slot id)
  | m => m

theorem ofRecord : Part.document.OfRecord f (record (σ := Json)) (fun m => m.write.1)
    fun m => some (m.finish f).write where
  name {m _} h := by
    cases h
    cases m <;> rfl
  field {key x m} hkey h := by
    simp only [record, List.mem_cons, List.not_mem_nil, or_false] at hkey
    rcases hkey with rfl | rfl | rfl | rfl | rfl | rfl | rfl | rfl | rfl | rfl | rfl | rfl | rfl
    all_goals
      obtain ⟨a, ha, rfl⟩ := map_eq_ok h
      simp [Part.child, Part.rewrite, Leaf.rewrite, ha, Member.finish, Member.write, Json.sorted,
        Json.sorted_ofOption, Json.sorted_ofStrings, Map.toJson_map]
  unknown {key} h := by
    simp only [Part.child]
    split <;> first | rfl | cases h
  renamed h hne := absurd (Record.eq_of_field? rfl h) hne
  aliases := by simp [record]
  always _ h := h

def fields (d : Document) : List Member :=
  [.widgets d.widgets, .monitors d.monitors, .collections d.collections, .wallpaper d.wallpaper,
    .themes d.themes, .iconPacks d.iconPacks, .language d.language, .dateFormat d.dateFormat,
    .shortcuts d.shortcuts, .performance d.performance, .desktops d.desktops,
    .hardwareAcceleration d.hardwareAcceleration, .updater d.updater]

theorem holds {d : Document} (h : read v = .ok d) : Part.document.Holds (record (σ := Json))
    (fun m => m.write.1) (fun m => some (m.finish f).write) v d.fields d.extra where
  names := rfl
  read := by
    obtain ⟨ms, hms, h⟩ := bind_eq_ok h
    cases h
    simp only [fields, List.forall_mem_cons]
    refine ⟨(gives ?_ fun _ _ => rfl).read_member .widgets hms (fun _ => rfl) (fun _ => rfl) rfl,
      (gives ?_ fun _ _ => rfl).read_member .monitors hms (fun _ => rfl) (fun _ => rfl) rfl,
      (gives ?_ fun _ _ => rfl).read_member .collections hms (fun _ => rfl) (fun _ => rfl) rfl,
      (gives ?_ fun _ _ => rfl).read_member .wallpaper hms (fun _ => rfl) (fun _ => rfl) rfl,
      (gives ?_ fun _ _ => rfl).read_member .themes hms (fun _ => rfl) (fun _ => rfl) rfl,
      (gives ?_ fun _ _ => rfl).read_member .iconPacks hms (fun _ => rfl) (fun _ => rfl) rfl,
      (gives ?_ fun _ _ => rfl).read_member .language hms (fun _ => rfl) (fun _ => rfl) rfl,
      (gives ?_ fun _ _ => rfl).read_member .dateFormat hms (fun _ => rfl) (fun _ => rfl) rfl,
      (gives ?_ fun _ _ => rfl).read_member .shortcuts hms (fun _ => rfl) (fun _ => rfl) rfl,
      (gives ?_ fun _ _ => rfl).read_member .performance hms (fun _ => rfl) (fun _ => rfl) rfl,
      (gives ?_ fun _ _ => rfl).read_member .desktops hms (fun _ => rfl) (fun _ => rfl) rfl,
      (gives ?_ fun _ _ => rfl).read_member .hardwareAcceleration hms (fun _ => rfl) (fun _ => rfl)
        rfl,
      (gives ?_ fun _ _ => rfl).read_member .updater hms (fun _ => rfl) (fun _ => rfl) rfl,
      nofun⟩
    all_goals exact fun m _ h => by cases m <;> cases h; rfl
  missing _ hm _ hkey := absurd (List.mem_map_of_mem (f := fun m => m.write.1) hm) hkey
  always _ _ _ := rfl
  rest key := extra_of_read h
  unknown e he := (wellFormed_of_read h (.extra e.1 e.2) (by simp [members, he])).1

theorem toValue_finish (d : Document) : (f.document d).toValue =
    Part.written (fun m : Member => some (m.finish f).write) d.fields d.extra := by
  simp [Part.written, fields, toValue, toJson, members, Finish.document, Member.finish,
    Member.write, Function.comp_def]

end Document

namespace Widget

def Member.named : Member → String
  | .enabled _ => enabledKey
  | .instances _ => instancesKey
  | .setting key _ => key

theorem Member.named_of_read {field : String} {m : Member} (h : Member.read field v = .ok m) :
    m.named = field := by
  unfold Member.read at h
  split at h
  all_goals
    obtain ⟨_, -, rfl⟩ := map_eq_ok h
    rfl

theorem gives {β : Type} {field : String} {sel : Member → Option β}
    (hkey : ∀ m b, sel m = some b → m.named = field)
    (hsetting : ∀ key x, sel (.setting key x) = none) : (record (σ := Json)).Gives field sel where
  field hm hf := (Member.named_of_read hm).symm.trans (hkey _ _ hf)
  other h := by
    cases h
    exact List.forall_mem_singleton.mpr (hsetting _ _)

def Member.finish (f : Finish) : Member → Member
  | .instances m => .instances (f.instances m)
  | m => m

theorem ofRecord : Part.widget.OfRecord f (record (σ := Json)) Member.named
    fun m => (m.finish f).write where
  name {m e} h := by
    cases m with
    | enabled b | instances b =>
      obtain ⟨_, -, rfl⟩ := Option.map_eq_some_iff.mp h
      rfl
    | setting key x =>
      cases h
      rfl
  field {key x m} hkey h := by
    simp only [record, List.mem_cons, List.not_mem_nil, or_false] at hkey
    rcases hkey with rfl | rfl
    all_goals
      obtain ⟨a, ha, rfl⟩ := map_eq_ok h
      simp [Part.child, Part.rewrite, Leaf.rewrite, ha, Member.finish, Member.write,
        enabledKey, instancesKey, Function.comp_def, Json.sorted]
  unknown {key} h := by
    simp only [Part.child]
    split <;> first | rfl | cases h
  renamed h hne := absurd (Record.eq_of_field? rfl h) hne
  aliases := by simp [record]
  always _ h := absurd h List.not_mem_nil

theorem holds {w : Widget} (h : read v = .ok w) : Part.widget.Holds (record (σ := Json))
    Member.named (fun m => (m.finish f).write) v [.enabled w.enabled, .instances w.instances]
    w.settings where
  names := rfl
  read := by
    obtain ⟨ms, hms, h⟩ := bind_eq_ok h
    cases h
    simp only [List.forall_mem_cons]
    refine ⟨(gives ?_ fun _ _ => rfl).read_member .enabled hms (fun _ => rfl) (fun _ => rfl) rfl,
      (gives ?_ fun _ _ => rfl).read_member .instances hms (fun _ => rfl) (fun _ => rfl) rfl,
      nofun⟩
    all_goals exact fun m _ h => by cases m <;> cases h; rfl
  missing := by
    obtain ⟨ms, hms, h⟩ := bind_eq_ok h
    cases h
    simp only [List.forall_mem_cons]
    refine ⟨fun hx _ => ?_, fun hx _ => ?_, nofun⟩
    · have hnone : (ofMembers ms).enabled = none :=
        (gives (fun m _ h => by cases m <;> cases h; rfl) fun _ _ => rfl).getD_of_missing rfl hms hx
      simp [Member.finish, Member.write, hnone]
    · have hnone : (ofMembers ms).instances = none :=
        (gives (fun m _ h => by cases m <;> cases h; rfl) fun _ _ => rfl).getD_of_missing rfl hms hx
      simp [Member.finish, Member.write, hnone, Finish.instances]
  always _ _ hkey := absurd hkey List.not_mem_nil
  rest key := settings_of_read h
  unknown e he := (wellFormed_of_read h (.setting e.1 e.2) (by simp [members, he])).1

theorem sorted_finish (w : Widget) : (f.widget w).toJson.sorted =
    Part.written (fun m : Member => (m.finish f).write) [.enabled w.enabled, .instances w.instances]
      w.settings := by
  have hsettings : ∀ l : List (String × Json),
      (l.map fun e => Member.setting e.1 e.2).filterMap Member.write = l := fun l => by
    simp [List.filterMap_map, Function.comp_def, Member.write]
  rw [toJson, members, List.filterMap_append, hsettings]
  rfl

end Widget

end ShellSettings
