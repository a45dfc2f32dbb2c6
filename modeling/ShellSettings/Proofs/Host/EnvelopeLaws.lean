import ShellSettings.Host.Envelope
import ShellSettings.Proofs.Document.RoundTrip

/-!
# What goes over the wire arrives

Each kind of envelope is read back as it was written, from any lawful source and
with its members in any order (`HostRequest.read_written` and the like). A message
is taken apart first: the tag may stand anywhere among the members, and what it
tags is read from the others, which were set aside. Null stands for nothing, so
what is optional must not be null itself.
-/

namespace ShellSettings

open Source (view whole)

variable {σ μ : Type} [Source σ] {g : Json → Json} {s : σ}

namespace Record

variable {r : Record σ μ}

theorem ofMapOrSequence_shown (lax : List String) (ms : List μ)
    (write : μ → Option (String × Json))
    (hread : ∀ m ∈ ms, ∀ e, write m = some e → r.ReadsBack g m e)
    (h : Read.Shows g (ms.filterMap write) s) :
    ∃ ns, r.ofMapOrSequence lax s = .ok ns ∧ ∀ m, m ∈ ns ↔ m ∈ ms ∧ (write m).isSome := by
  obtain ⟨ns, hns, hmem⟩ := ofMap_shown write hread h
  obtain ⟨members, hview, -⟩ := h
  exact ⟨ns, by simpa [ofMapOrSequence, hview] using hns, hmem⟩

end Record

/-- A value that an optional member can carry. -/
def Json.Carried (v : Json) : Prop := v ≠ .null ∧ v.IsSorted

theorem Read.optional_json_written [LawfulSource σ] {v : Json} (hg : Json.Rearranges g)
    (hv : v.Carried) (h : whole s = .ok (g v)) : optional json s = .ok (some v) :=
  optional_written hg hv.1 h (json_written hg hv.2 h)

/-- The document was read, from a value or from a text. -/
def Document.Decoded (d : Document) : Prop :=
  (∃ v, ofJson? v = .ok d) ∨ ∃ text, ofText? text = .ok d

theorem Document.Decoded.wellFormed {d : Document} (h : d.Decoded) : d.WellFormed := by
  rcases h with ⟨v, hv⟩ | ⟨text, htext⟩
  · exact wellFormed_of_read hv
  · obtain ⟨e, he, hrest⟩ := bind_eq_ok htext
    obtain ⟨-, -, heq⟩ := bind_eq_ok hrest
    cases heq
    exact wellFormed_of_read he

-- ---------------------------------------------------------------------------
-- Errors
-- ---------------------------------------------------------------------------

namespace HostError

def WellFormed (e : HostError) : Prop := ∀ v ∈ e.data, v.Carried

def Member.write : Member → Option (String × Json)
  | .code c => some ("code", .str c.name)
  | .message s => some ("message", .str s)
  | .data v => v.map ("data", ·)

def members (e : HostError) : List Member := [.code e.code, .message e.message, .data e.data]

theorem toJson_eq (e : HostError) : e.toJson = .obj (e.members.filterMap Member.write) := by
  obtain ⟨code, message, _ | v⟩ := e <;> rfl

theorem nodup_keys (e : HostError) : ((e.members.filterMap Member.write).map (·.1)).Nodup := by
  obtain ⟨code, message, _ | v⟩ := e <;> simp [members, Member.write, List.filterMap_cons]

theorem ofMembers_eq {e : HostError} {ms : List Member}
    (h : ∀ m, m ∈ ms ↔ m ∈ e.members ∧ m.write.isSome) : ofMembers ms = .ok e := by
  obtain ⟨code, message, data⟩ := e
  unfold ofMembers
  rw [Record.findSome?_eq_some (b := code) h, Record.findSome?_eq_some (b := message) h,
    Record.getD_findSome?_eq (b := data) h]
  · rfl
  all_goals simp [members, Member.write]
  cases data <;> simp

theorem Member.readsBack [LawfulSource σ] {e : HostError} (hg : Json.Rearranges g)
    (he : e.WellFormed) : ∀ m ∈ e.members, ∀ entry, m.write = some entry →
      (record (σ := σ)).ReadsBack g m entry := by
  simp only [members, List.forall_mem_cons]
  refine ⟨?_, ?_, ?_, nofun⟩
  · rintro _ ⟨⟩ i hi
    have hcode := Read.name_written HostErrorCode.table (a := e.code) hg
      (by cases e.code <;> rfl) hi
    exact .inl ⟨by simp [record], by simp [record, read, HostErrorCode.read, hcode]⟩
  · rintro _ ⟨⟩ i hi
    exact .inl ⟨by simp [record], by simp [record, read, Read.text_written hg hi]⟩
  · rintro _ hentry i hi
    obtain ⟨v, hv, rfl⟩ := Option.map_eq_some_iff.mp hentry
    have hdata := Read.optional_json_written hg (he v hv) hi
    exact .inl ⟨by simp [record], by simp [record, read, hdata, hv]⟩

theorem read_written [LawfulSource σ] {e : HostError} (hg : Json.Rearranges g)
    (he : e.WellFormed) (h : whole s = .ok (g e.toJson)) : read s = .ok e := by
  rw [toJson_eq] at h
  obtain ⟨ms, hms, hmem⟩ := (record (σ := σ)).ofMapOrSequence_shown [] _
    Member.write (Member.readsBack hg he) (Read.shows_written hg (nodup_keys e) h)
  simp [read, hms, ofMembers_eq hmem]

end HostError

-- ---------------------------------------------------------------------------
-- Catalogs
-- ---------------------------------------------------------------------------

namespace CatalogEntry

def WellFormed (e : CatalogEntry) : Prop := e.metadata.IsSorted

def Member.write : Member → Option (String × Json)
  | .id s => some ("id", .str s)
  | .metadata .null => none
  | .metadata v => some ("metadata", v)

def members (e : CatalogEntry) : List Member := [.id e.id, .metadata e.metadata]

theorem toJson_eq (e : CatalogEntry) : e.toJson = .obj (e.members.filterMap Member.write) := by
  obtain ⟨id, _ | b | n | t | xs | ms⟩ := e <;> rfl

theorem nodup_keys (e : CatalogEntry) : ((e.members.filterMap Member.write).map (·.1)).Nodup := by
  obtain ⟨id, _ | b | n | t | xs | ms⟩ := e <;>
    simp [members, Member.write, List.filterMap_cons]

theorem ofMembers_eq {e : CatalogEntry} {ms : List Member}
    (h : ∀ m, m ∈ ms ↔ m ∈ e.members ∧ m.write.isSome) : ofMembers ms = .ok e := by
  obtain ⟨id, metadata⟩ := e
  unfold ofMembers
  rw [Record.findSome?_eq_some (b := id) h, Record.getD_findSome?_eq (b := metadata) h]
  · rfl
  all_goals simp [members, Member.write]
  cases metadata <;> simp

theorem Member.readsBack [LawfulSource σ] {e : CatalogEntry} (hg : Json.Rearranges g)
    (he : e.WellFormed) : ∀ m ∈ e.members, ∀ entry, m.write = some entry →
      (record (σ := σ)).ReadsBack g m entry := by
  simp only [members, List.forall_mem_cons]
  refine ⟨?_, ?_, nofun⟩
  · rintro _ ⟨⟩ i hi
    exact .inl ⟨by simp [record], by simp [record, read, Read.text_written hg hi]⟩
  · intro entry hentry i hi
    have hwrite : entry = ("metadata", e.metadata) := by
      unfold Member.write at hentry
      split at hentry <;> simp_all
    subst hwrite
    exact .inl ⟨by simp [record], by simp [record, read, Read.json_written hg he hi]⟩

theorem read_written [LawfulSource σ] {e : CatalogEntry} (hg : Json.Rearranges g)
    (he : e.WellFormed) (h : whole s = .ok (g e.toJson)) : read s = .ok e := by
  rw [toJson_eq] at h
  obtain ⟨ms, hms, hmem⟩ := (record (σ := σ)).ofMapOrSequence_shown ["metadata"] _
    Member.write (Member.readsBack hg he) (Read.shows_written hg (nodup_keys e) h)
  simp [read, hms, ofMembers_eq hmem]

end CatalogEntry

namespace Feed

def WellFormed (f : Feed) : Prop := ∀ e ∈ f.entries, e.WellFormed

def Member.write : Member → Option (String × Json)
  | .kind k => some ("kind", .str k.name)
  | .entries es => some ("entries", .arr (es.map CatalogEntry.toJson))

def members (f : Feed) : List Member := [.kind f.kind, .entries f.entries]

theorem ofMembers_eq {f : Feed} {ms : List Member}
    (h : ∀ m, m ∈ ms ↔ m ∈ f.members ∧ m.write.isSome) : ofMembers ms = .ok f := by
  obtain ⟨kind, entries⟩ := f
  unfold ofMembers
  rw [Record.findSome?_eq_some (b := kind) h, Record.findSome?_eq_some (b := entries) h]
  · rfl
  all_goals simp [members, Member.write]

theorem Member.readsBack [LawfulSource σ] {f : Feed} (hg : Json.Rearranges g)
    (hf : f.WellFormed) : ∀ m ∈ f.members, ∀ entry, m.write = some entry →
      (record (σ := σ)).ReadsBack g m entry := by
  simp only [members, List.forall_mem_cons]
  refine ⟨?_, ?_, nofun⟩
  · rintro _ ⟨⟩ i hi
    have hkind := Read.name_written ResourceKind.table (a := f.kind) hg
      (by cases f.kind <;> rfl) hi
    exact .inl ⟨by simp [record], by simp [record, read, ResourceKind.read, hkind]⟩
  · rintro _ ⟨⟩ i hi
    have hentries := Read.list_written CatalogEntry.read CatalogEntry.toJson hg
      (fun e he _ => CatalogEntry.read_written hg (hf e he)) hi
    exact .inl ⟨by simp [record], by simp [record, read, hentries]⟩

theorem read_written [LawfulSource σ] {f : Feed} (hg : Json.Rearranges g)
    (hf : f.WellFormed) (h : whole s = .ok (g f.toJson)) : read s = .ok f := by
  obtain ⟨ms, hms, hmem⟩ := (record (σ := σ)).ofMapOrSequence_shown [] _
    Member.write (Member.readsBack hg hf)
    (Read.shows_written hg (by simp [members, Member.write]) h)
  simp [read, hms, ofMembers_eq hmem]

end Feed

-- ---------------------------------------------------------------------------
-- Requests
-- ---------------------------------------------------------------------------

namespace HostRequest

def WellFormed (r : HostRequest) : Prop := r.payload.IsSorted

def Member.write : Member → Option (String × Json)
  | .version v => some ("protocol_version", .int v.toInt)
  | .op s => some ("op", .str s)
  | .id s => some ("request_id", .str s)
  | .payload v => some ("payload", v)

def members (r : HostRequest) : List Member :=
  [.version r.version, .op r.op, .id r.id, .payload r.payload]

theorem ofMembers_eq {r : HostRequest} {ms : List Member}
    (h : ∀ m, m ∈ ms ↔ m ∈ r.members ∧ m.write.isSome) : ofMembers ms = .ok r := by
  obtain ⟨version, op, id, payload⟩ := r
  unfold ofMembers
  rw [Record.findSome?_eq_some (b := version) h, Record.findSome?_eq_some (b := op) h,
    Record.findSome?_eq_some (b := id) h, Record.findSome?_eq_some (b := payload) h]
  · rfl
  all_goals simp [members, Member.write]

theorem Member.readsBack [LawfulSource σ] {r : HostRequest} (hg : Json.Rearranges g)
    (hr : r.WellFormed) : ∀ m ∈ r.members, ∀ entry, m.write = some entry →
      (record (σ := σ)).ReadsBack g m entry := by
  simp only [members, List.forall_mem_cons]
  refine ⟨?_, ?_, ?_, ?_, nofun⟩
  · rintro _ ⟨⟩ i hi
    exact .inl ⟨by simp [record], by simp [record, read, Read.int32_written hg hi]⟩
  · rintro _ ⟨⟩ i hi
    exact .inl ⟨by simp [record], by simp [record, read, Read.text_written hg hi]⟩
  · rintro _ ⟨⟩ i hi
    exact .inl ⟨by simp [record], by simp [record, read, Read.text_written hg hi]⟩
  · rintro _ ⟨⟩ i hi
    exact .inl ⟨by simp [record], by simp [record, read, Read.json_written hg hr hi]⟩

theorem read_written [LawfulSource σ] {r : HostRequest} (hg : Json.Rearranges g)
    (hr : r.WellFormed) (h : whole s = .ok (g r.toJson)) : read s = .ok r := by
  obtain ⟨ms, hms, hmem⟩ := (record (σ := σ)).ofMapOrSequence_shown [] _
    Member.write (Member.readsBack hg hr)
    (Read.shows_written hg (by simp [members, Member.write]) h)
  simp [read, hms, ofMembers_eq hmem]

end HostRequest

-- ---------------------------------------------------------------------------
-- Responses
-- ---------------------------------------------------------------------------

namespace HostResponse

def WellFormed (r : HostResponse) : Prop :=
  (∀ v ∈ r.payload, v.Carried) ∧ ∀ e ∈ r.error, e.WellFormed

def Member.write : Member → Option (String × Json)
  | .version v => some ("protocol_version", .int v.toInt)
  | .requestId s => some ("request_id", .str s)
  | .ok b => some ("ok", .bool b)
  | .payload v => v.map ("payload", ·)
  | .error e => e.map fun e => ("error", e.toJson)

def members (r : HostResponse) : List Member :=
  [.version r.version, .requestId r.requestId, .ok r.ok, .payload r.payload, .error r.error]

theorem toJson_eq (r : HostResponse) : r.toJson = .obj (r.members.filterMap Member.write) := by
  obtain ⟨version, requestId, ok, _ | v, _ | e⟩ := r <;> rfl

theorem nodup_keys (r : HostResponse) : ((r.members.filterMap Member.write).map (·.1)).Nodup := by
  obtain ⟨version, requestId, ok, _ | v, _ | e⟩ := r <;>
    simp [members, Member.write, List.filterMap_cons]

theorem ofMembers_eq {r : HostResponse} {ms : List Member}
    (h : ∀ m, m ∈ ms ↔ m ∈ r.members ∧ m.write.isSome) : ofMembers ms = .ok r := by
  obtain ⟨version, requestId, ok, payload, error⟩ := r
  unfold ofMembers
  rw [Record.findSome?_eq_some (b := version) h, Record.findSome?_eq_some (b := requestId) h,
    Record.findSome?_eq_some (b := ok) h, Record.getD_findSome?_eq (b := payload) h,
    Record.getD_findSome?_eq (b := error) h]
  · rfl
  all_goals simp [members, Member.write]
  · cases error <;> simp
  · cases payload <;> simp

theorem Member.readsBack [LawfulSource σ] {r : HostResponse} (hg : Json.Rearranges g)
    (hr : r.WellFormed) : ∀ m ∈ r.members, ∀ entry, m.write = some entry →
      (record (σ := σ)).ReadsBack g m entry := by
  simp only [members, List.forall_mem_cons]
  refine ⟨?_, ?_, ?_, ?_, ?_, nofun⟩
  · rintro _ ⟨⟩ i hi
    exact .inl ⟨by simp [record], by simp [record, read, Read.int32_written hg hi]⟩
  · rintro _ ⟨⟩ i hi
    exact .inl ⟨by simp [record], by simp [record, read, Read.text_written hg hi]⟩
  · rintro _ ⟨⟩ i hi
    exact .inl ⟨by simp [record], by simp [record, read, Read.bool_written hg hi]⟩
  · intro _ hentry i hi
    obtain ⟨v, hv, rfl⟩ := Option.map_eq_some_iff.mp hentry
    have hpayload := Read.optional_json_written hg (hr.1 v hv) hi
    exact .inl ⟨by simp [record], by simp [record, read, hpayload, hv]⟩
  · intro _ hentry i hi
    obtain ⟨e, he, rfl⟩ := Option.map_eq_some_iff.mp hentry
    have herror := Read.optional_written hg (v := e.toJson) (by simp [HostError.toJson]) hi
      (HostError.read_written hg (hr.2 e he) hi)
    exact .inl ⟨by simp [record], by simp [record, read, herror, he]⟩

theorem read_written [LawfulSource σ] {r : HostResponse} (hg : Json.Rearranges g)
    (hr : r.WellFormed) (h : whole s = .ok (g r.toJson)) : read s = .ok r := by
  rw [toJson_eq] at h
  obtain ⟨ms, hms, hmem⟩ := (record (σ := σ)).ofMapOrSequence_shown [] _
    Member.write (Member.readsBack hg hr) (Read.shows_written hg (nodup_keys r) h)
  simp [read, hms, ofMembers_eq hmem]

end HostResponse

-- ---------------------------------------------------------------------------
-- Messages
-- ---------------------------------------------------------------------------

namespace HostMessage

def WellFormed : HostMessage → Prop
  | .persistResult _ _ error => ∀ e ∈ error, e.WellFormed
  | .changed document => document.Decoded
  | .catalogUpdated feed => feed.WellFormed

/-- The tag is found wherever it stands, and the other members are set aside as they are. -/
theorem splitTag_written {t : Tag} {members : List (String × σ)} {ns : List (String × Json)}
    (tag : Option Tag) (h : members.map (fun m => (m.1, whole m.2)) = ns.map fun n => (n.1, .ok n.2))
    (hkeys : (ns.map (·.1)).Nodup)
    (htag : ∀ m ∈ members, m.1 = tagKey → tag = none ∧ Tag.read m.2 = .ok t) :
    splitTag tag members = .ok
      (if tagKey ∈ ns.map (·.1) then some t else tag, ns.filter (·.1 ≠ tagKey)) := by
  induction ns generalizing members tag with
  | nil =>
    cases List.map_eq_nil_iff.mp h
    rfl
  | cons n ns ih =>
    cases members with
    | nil => cases h
    | cons m members =>
      obtain ⟨key, s⟩ := m
      obtain ⟨head, tail⟩ := List.cons.inj h
      obtain ⟨rfl, hwhole⟩ : key = n.1 ∧ whole s = .ok n.2 := by simpa using head
      obtain ⟨hfresh, hrest⟩ := List.nodup_cons.mp hkeys
      have hmore := List.forall_mem_cons.mp htag
      by_cases hkey : n.1 = tagKey
      · obtain ⟨rfl, hread⟩ := hmore.1 hkey
        have hone : ∀ m ∈ members, m.1 ≠ tagKey := by
          intro m hm heq
          have hin : (m.1, whole m.2) ∈ ns.map fun n => (n.1, Except.ok n.2) :=
            tail ▸ List.mem_map.mpr ⟨m, hm, rfl⟩
          obtain ⟨n', hn', hsame⟩ := List.mem_map.mp hin
          exact hfresh (List.mem_map.mpr ⟨n', hn', by simp_all⟩)
        have hnone : tagKey ∉ ns.map (·.1) := hkey ▸ hfresh
        have hih := ih (some t) tail hrest fun m hm heq => absurd heq (hone m hm)
        simp [splitTag, hkey, hread, hih, hnone]
      · have hih := ih tag tail hrest hmore.2
        have hmem : tagKey ∈ (n :: ns).map (·.1) ↔ tagKey ∈ ns.map (·.1) := by
          simp [Ne.symm hkey]
        simp only [splitTag, hkey, if_false, hwhole, hih, ok_bind, pure_eq_ok, hmem]
        simp [hkey]

theorem Tag.read_written [LawfulSource σ] {name : String} {t : Tag} (hg : Json.Rearranges g)
    (ht : Tag.table.lookup name = some t) (h : whole s = .ok (g (.str name))) :
    Tag.read s = .ok t := by
  rw [hg.str] at h
  simp [Tag.read, Read.textAs, LawfulSource.text h, Read.variant, ht]

theorem readTagged_written [LawfulSource σ] {name : String} {t : Tag}
    {entries : List (String × Json)} (hg : Json.Rearranges g)
    (ht : Tag.table.lookup name = some t) (hkeys : (tagKey :: entries.map (·.1)).Nodup)
    (h : whole s = .ok (g (.obj ((tagKey, .str name) :: entries)))) :
    ∃ content, readTagged s = .ok (t, content) ∧ Read.Shows g entries content := by
  obtain ⟨ns, hobj, hnodup, hmem⟩ := hg.obj ((tagKey, .str name) :: entries) (by simpa using hkeys)
  obtain ⟨members, hview, hsame⟩ := LawfulSource.map (hobj ▸ h)
  have hfresh : ∀ e ∈ entries, e.1 ≠ tagKey := by
    intro e he heq
    exact (List.nodup_cons.mp hkeys).1 (List.mem_map.mpr ⟨e, he, heq⟩)
  have htag : ∀ m ∈ members, m.1 = tagKey → (none : Option Tag) = none ∧ Tag.read m.2 = .ok t := by
    intro m hm hkey
    have hin : (m.1, whole m.2) ∈ ns.map fun n => (n.1, Except.ok n.2) :=
      hsame ▸ List.mem_map.mpr ⟨m, hm, rfl⟩
    obtain ⟨n, hn, heq⟩ := List.mem_map.mp hin
    obtain ⟨e, he, rfl⟩ := (hmem n).mp hn
    simp only [Prod.mk.injEq] at heq
    rcases List.mem_cons.mp he with rfl | he
    · exact ⟨rfl, Tag.read_written hg ht heq.2.symm⟩
    · exact absurd (heq.1.trans hkey) (hfresh e he)
  have hthere : tagKey ∈ ns.map (·.1) :=
    List.mem_map.mpr ⟨_, (hmem _).mpr ⟨_, List.mem_cons_self, rfl⟩, rfl⟩
  have hsplit := splitTag_written none hsame hnodup htag
  rw [if_pos hthere] at hsplit
  have hrest : ∀ n, n ∈ ns.filter (·.1 ≠ tagKey) ↔ ∃ e ∈ entries, n = (e.1, g e.2) := by
    intro n
    simp only [List.mem_filter, hmem, decide_eq_true_eq]
    constructor
    · rintro ⟨⟨e, he, rfl⟩, hkey⟩
      rcases List.mem_cons.mp he with rfl | he
      · exact absurd rfl hkey
      · exact ⟨e, he, rfl⟩
    · rintro ⟨e, he, rfl⟩
      exact ⟨⟨e, List.mem_cons_of_mem _ he, rfl⟩, hfresh e he⟩
  refine ⟨⟨.obj (ns.filter (·.1 ≠ tagKey))⟩, ?_, (ns.filter (·.1 ≠ tagKey)).map fun n => (n.1, ⟨n.2⟩),
    rfl, ?_, fun i hi => ?_, fun e he => ?_⟩
  · simp [readTagged, hview, hsplit, Read.finish, MapEnd.fault?, Read.require]
  · simpa [Function.comp_def] using hnodup.sublist (List.filter_sublist.map _)
  · obtain ⟨n, hn, rfl⟩ := List.mem_map.mp hi
    obtain ⟨e, he, rfl⟩ := (hrest n).mp hn
    exact ⟨e, he, rfl, rfl⟩
  · exact ⟨_, List.mem_map.mpr ⟨_, (hrest _).mpr ⟨e, he, rfl⟩, rfl⟩, rfl, rfl⟩

-- ---------------------------------------------------------------------------
-- Results
-- ---------------------------------------------------------------------------

def ResultMember.write : ResultMember → Option (String × Json)
  | .requestId s => some ("request_id", .str s)
  | .ok b => some ("ok", .bool b)
  | .error e => e.map fun e => ("error", e.toJson)

def resultMembers (requestId : String) (ok : Bool) (error : Option HostError) :
    List ResultMember :=
  [.requestId requestId, .ok ok, .error error]

variable {requestId : String} {ok : Bool} {error : Option HostError}

theorem toJson_persistResult : (persistResult requestId ok error).toJson =
    .obj ((tagKey, .str "persist_result") ::
      (resultMembers requestId ok error).filterMap ResultMember.write) := by
  cases error <;> rfl

theorem ResultMember.readsBack [LawfulSource σ] (hg : Json.Rearranges g)
    (herror : ∀ e ∈ error, e.WellFormed) :
    ∀ m ∈ resultMembers requestId ok error, ∀ entry, m.write = some entry →
      (resultRecord (σ := σ)).ReadsBack g m entry := by
  simp only [resultMembers, List.forall_mem_cons]
  refine ⟨?_, ?_, ?_, nofun⟩
  · rintro _ ⟨⟩ i hi
    exact .inl ⟨by simp [resultRecord], by simp [resultRecord, Read.text_written hg hi]⟩
  · rintro _ ⟨⟩ i hi
    exact .inl ⟨by simp [resultRecord], by simp [resultRecord, Read.bool_written hg hi]⟩
  · intro _ hentry i hi
    obtain ⟨e, he, rfl⟩ := Option.map_eq_some_iff.mp hentry
    have hread := Read.optional_written hg (v := e.toJson) (by simp [HostError.toJson]) hi
      (HostError.read_written hg (herror e he) hi)
    exact .inl ⟨by simp [resultRecord], by simp [resultRecord, hread, he]⟩

theorem readResult_shown [LawfulSource σ] (hg : Json.Rearranges g)
    (herror : ∀ e ∈ error, e.WellFormed)
    (h : Read.Shows g ((resultMembers requestId ok error).filterMap ResultMember.write) s) :
    readResult s = .ok (.persistResult requestId ok error) := by
  obtain ⟨ms, hms, hmem⟩ := (resultRecord (σ := σ)).ofMapOrSequence_shown ["error"] _
    ResultMember.write (ResultMember.readsBack hg herror) h
  unfold readResult
  rw [hms, ok_bind, Record.findSome?_eq_some (b := requestId) hmem,
    Record.findSome?_eq_some (b := ok) hmem, Record.getD_findSome?_eq (b := error) hmem]
  · rfl
  all_goals simp [resultMembers, ResultMember.write]
  cases error <;> simp

-- ---------------------------------------------------------------------------
-- Documents and catalogs
-- ---------------------------------------------------------------------------

theorem head?_of_mem_iff {α : Type} {xs : List α} {x : α} (h : ∀ y, y ∈ xs ↔ y = x) :
    xs.head? = some x := by
  cases xs with
  | nil => exact absurd ((h x).mpr rfl) List.not_mem_nil
  | cons y ys => simp [(h y).mp List.mem_cons_self]

theorem readChanged_shown [LawfulSource σ] {d : Document} (hg : Json.Rearranges g)
    (hd : d.WellFormed) (h : Read.Shows g [("document", d.toJson)] s) :
    readChanged s = .ok (.changed d) := by
  obtain ⟨ds, hds, hmem⟩ := (changedRecord (σ := σ)).ofMapOrSequence_shown [] [d]
    (fun d => some ("document", d.toJson)) (by
      simp only [List.forall_mem_singleton]
      rintro _ ⟨⟩ i hi
      exact .inl ⟨by simp [changedRecord], Document.read_written hg hd hi⟩) h
  have hhead : ds.head? = some d := head?_of_mem_iff fun e => by simp [hmem]
  simp [readChanged, hds, hhead, Read.require]

theorem readCatalog_shown [LawfulSource σ] {f : Feed} (hg : Json.Rearranges g)
    (hf : f.WellFormed) (h : Read.Shows g [("feed", f.toJson)] s) :
    readCatalog s = .ok (.catalogUpdated f) := by
  obtain ⟨fs, hfs, hmem⟩ := (catalogRecord (σ := σ)).ofMapOrSequence_shown [] [f]
    (fun f => some ("feed", f.toJson)) (by
      simp only [List.forall_mem_singleton]
      rintro _ ⟨⟩ i hi
      exact .inl ⟨by simp [catalogRecord], Feed.read_written hg hf hi⟩) h
  have hhead : fs.head? = some f := head?_of_mem_iff fun e => by simp [hmem]
  simp [readCatalog, hfs, hhead, Read.require]

theorem read_written [LawfulSource σ] {m : HostMessage} (hg : Json.Rearranges g)
    (hm : m.WellFormed) (h : whole s = .ok (g m.toJson)) : read s = .ok m := by
  cases m with
  | persistResult requestId ok error =>
    rw [toJson_persistResult] at h
    obtain ⟨content, htagged, hshown⟩ := readTagged_written hg (t := .persistResult) rfl
      (by cases error <;> simp [resultMembers, ResultMember.write, tagKey, List.filterMap_cons]) h
    simp [read, htagged, readResult_shown hg hm hshown]
  | changed d =>
    obtain ⟨content, htagged, hshown⟩ := readTagged_written hg (t := .changed) rfl
      (by simp [tagKey]) h
    simp [read, htagged, readChanged_shown hg hm.wellFormed hshown]
  | catalogUpdated f =>
    obtain ⟨content, htagged, hshown⟩ := readTagged_written hg (t := .catalogUpdated) rfl
      (by simp [tagKey]) h
    simp [read, htagged, readCatalog_shown hg hm hshown]

end HostMessage

-- ---------------------------------------------------------------------------
-- All of them
-- ---------------------------------------------------------------------------

/-- Every envelope is read back from its value as it was: a request, if its payload is a value,
that is, has its objects in key order; a response and a message, if what is optional in them and in
their errors is a value and not null, and a document in them was itself read; and a feed, if the
metadata of its entries are values. -/
theorem envelopes_read_back :
    (∀ r : HostRequest, r.WellFormed → HostRequest.read r.toJson.sorted = .ok r) ∧
    (∀ r : HostResponse, r.WellFormed → HostResponse.read r.toJson.sorted = .ok r) ∧
    (∀ m : HostMessage, m.WellFormed → HostMessage.read m.toJson.sorted = .ok m) ∧
    ∀ f : Feed, f.WellFormed → Feed.read f.toJson.sorted = .ok f :=
  ⟨fun _ h => HostRequest.read_written Json.rearranges_sorted h rfl,
    fun _ h => HostResponse.read_written Json.rearranges_sorted h rfl,
    fun _ h => HostMessage.read_written Json.rearranges_sorted h rfl,
    fun _ h => Feed.read_written Json.rearranges_sorted h rfl⟩

/-- An error that carries something: in key order the tag stands between the error and the rest. -/
theorem envelopes_read_back_refused :
    HostMessage.read (HostMessage.persistFailed "req-9" (.unknownOperation "sing")).toJson.sorted =
      .ok (.persistFailed "req-9" (.unknownOperation "sing")) := by
  refine envelopes_read_back.2.2.1 _ fun e he v hv => ?_
  cases he
  cases hv
  exact ⟨nofun, rfl⟩

end ShellSettings
