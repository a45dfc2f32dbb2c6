import ShellSettings.Proofs.Json.RecordLaws

/-!
# Reading from a text

A text is a lawful source, and the other way about: where a look into it shows
something whose parts can be taken as a whole, so can the place itself. A reader
is thorough if it reads nothing without the whole being there; readers made of
thorough ones are thorough, so a record that has been read from a text has been
read through, however deep it is nested.
-/

namespace ShellSettings

open Source (view whole)

namespace Draft

theorem wholeItems_eq_ok {room : Nat} {ds : List Draft} {xs : List Json} :
    wholeItems ds room = .ok xs ↔ ds.map (fun d => d.whole room) = xs.map .ok := by
  induction ds generalizing xs with
  | nil => cases xs <;> simp [wholeItems]
  | cons d ds ih =>
    rw [wholeItems]
    constructor
    · intro h
      obtain ⟨x, hx, h⟩ := bind_eq_ok h
      obtain ⟨rest, hrest, h⟩ := bind_eq_ok h
      cases h
      simp [hx, ih.mp hrest]
    · intro h
      cases xs with
      | nil => cases h
      | cons x xs =>
        obtain ⟨hx, hxs⟩ := List.cons.inj h
        simp [hx, ih.mpr hxs]

theorem wholeItems_eq_mapM (ds : List Draft) (room : Nat) :
    wholeItems ds room = ds.mapM fun d => d.whole room := by
  induction ds with
  | nil => rfl
  | cons d ds ih => simp [wholeItems, ih, List.mapM_cons]

theorem finish_eq_ok {fault : Option Fault} {u : Unit} (h : Read.finish fault = .ok u) :
    fault = none := by
  cases fault with
  | none => rfl
  | some => cases h

theorem closed_of_finish {stop : MapEnd} {u : Unit} (h : Read.finish stop.fault? = .ok u) :
    stop = .closed := by
  cases stop with
  | closed => rfl
  | _ => cases h

theorem textMembers_of_whole {room : Nat} {members : List (Option String × Draft)}
    {ms : List (String × Json)} (h : wholeMembers members room = .ok ms) (stop : MapEnd) :
    ∃ ns, Cursor.textMembers room members stop = (ns, stop) ∧
      ns.map (fun n => (n.1, Source.whole n.2)) = ms.map fun m => (m.1, .ok m.2) := by
  induction members generalizing ms with
  | nil =>
    cases h
    exact ⟨[], rfl, rfl⟩
  | cons m members ih =>
    obtain ⟨_ | key, d⟩ := m
    · cases h
    · obtain ⟨x, hx, h⟩ := bind_eq_ok h
      obtain ⟨rest, hrest, h⟩ := bind_eq_ok h
      cases h
      obtain ⟨ns, hns, hmap⟩ := ih hrest
      refine ⟨(key, ⟨room, d⟩) :: ns, by simp [Cursor.textMembers, hns], ?_⟩
      rw [List.map_cons, List.map_cons, hmap]
      exact congrArg (· :: _) (congrArg _ hx)

theorem whole_of_textMembers {room : Nat} {members : List (Option String × Draft)} {stop : MapEnd}
    {ns : List (String × Cursor)} (h : Cursor.textMembers room members stop = (ns, .closed))
    (hns : ∀ n ∈ ns, ∃ v, Source.whole n.2 = .ok v) :
    stop = .closed ∧ ∃ ms, wholeMembers members room = .ok ms := by
  induction members generalizing ns with
  | nil =>
    cases h
    exact ⟨rfl, [], rfl⟩
  | cons m members ih =>
    obtain ⟨_ | key, d⟩ := m
    · cases h
    · rw [Cursor.textMembers] at h
      cases hrest : Cursor.textMembers room members stop with
      | mk rest stop' =>
        rw [hrest] at h
        cases h
        obtain ⟨x, hx⟩ := hns _ List.mem_cons_self
        obtain ⟨hstop, ms, hms⟩ := ih hrest fun n hn => hns n (List.mem_cons_of_mem _ hn)
        have hhead : d.whole room = .ok x := hx
        exact ⟨hstop, (key, x) :: ms, by simp [wholeMembers, hhead, hms]⟩

end Draft

namespace Cursor

variable {c : Cursor}

theorem whole_cases {v : Json} (h : whole c = .ok v) :
    (v = .null ∧ c.draft = .null) ∨ (∃ b, v = .bool b ∧ c.draft = .bool b) ∨
      (∃ n, v = .num n ∧ c.draft = .num (some n)) ∨ (∃ t, v = .str t ∧ c.draft = .str (some t)) ∨
      (∃ xs items room, v = .arr xs ∧ c = ⟨room + 1, .arr items none⟩ ∧
        Draft.wholeItems items room = .ok xs) ∨
      ∃ ms members room, v = .obj ms ∧ c = ⟨room + 1, .obj members .closed⟩ ∧
        Draft.wholeMembers members room = .ok ms := by
  obtain ⟨room, draft⟩ := c
  change draft.whole room = .ok v at h
  cases draft with
  | null =>
    cases h
    simp
  | bool b =>
    cases h
    simp
  | num n =>
    cases n with
    | none => cases h
    | some n =>
      cases h
      simp
  | str t =>
    cases t with
    | none => cases h
    | some t =>
      cases h
      simp
  | arr items fault =>
    cases room with
    | zero => cases h
    | succ room =>
      obtain ⟨xs, hxs, h⟩ := bind_eq_ok h
      obtain ⟨u, hfault, h⟩ := bind_eq_ok h
      cases h
      cases Draft.finish_eq_ok hfault
      exact .inr (.inr (.inr (.inr (.inl ⟨xs, items, room, rfl, rfl, hxs⟩))))
  | obj members stop =>
    cases room with
    | zero => cases h
    | succ room =>
      obtain ⟨ms, hms, h⟩ := bind_eq_ok h
      obtain ⟨u, hstop, h⟩ := bind_eq_ok h
      cases h
      cases Draft.closed_of_finish hstop
      exact .inr (.inr (.inr (.inr (.inr ⟨ms, members, room, rfl, rfl, hms⟩))))
  | broken fault => cases h

end Cursor

instance : LawfulSource Cursor where
  null {c} h := by
    have hd : c.draft = .null := by simpa using Cursor.whole_cases h
    simp [view, Cursor.view, hd]
  bool {c b} h := by
    have hd : c.draft = .bool b := by simpa using Cursor.whole_cases h
    simp [view, Cursor.view, hd]
  number {c n} h := by
    have hd : c.draft = .num (some n) := by simpa using Cursor.whole_cases h
    simp [view, Cursor.view, hd]
  text {c t} h := by
    have hd : c.draft = .str (some t) := by simpa using Cursor.whole_cases h
    simp [view, Cursor.view, hd]
  sequence {c xs} h := by
    have hc : ∃ items room, c = ⟨room + 1, .arr items none⟩ ∧
        Draft.wholeItems items room = .ok xs := by simpa using Cursor.whole_cases h
    obtain ⟨items, room, rfl, hitems⟩ := hc
    refine ⟨items.map (Cursor.mk room), rfl, ?_⟩
    rw [List.map_map]
    exact Draft.wholeItems_eq_ok.mp hitems
  map {c ms} h := by
    have hc : ∃ members room, c = ⟨room + 1, .obj members .closed⟩ ∧
        Draft.wholeMembers members room = .ok ms := by simpa using Cursor.whole_cases h
    obtain ⟨members, room, rfl, hmembers⟩ := hc
    obtain ⟨ns, hns, hmap⟩ := Draft.textMembers_of_whole hmembers .closed
    exact ⟨ns, by simp [view, Cursor.view, hns], hmap⟩

-- ---------------------------------------------------------------------------
-- What a look says of the whole
-- ---------------------------------------------------------------------------

def View.Through : View Cursor → Prop
  | .sequence items fault => fault = none ∧ ∀ i ∈ items, ∃ v, whole i = .ok v
  | .map members stop => stop = .closed ∧ ∀ m ∈ members, ∃ v, whole m.2 = .ok v
  | .broken _ => False
  | _ => True

theorem Cursor.whole_of_view {c : Cursor} (h : (Source.view c).Through) : ∃ v, whole c = .ok v := by
  obtain ⟨room, draft⟩ := c
  cases draft with
  | null => exact ⟨_, rfl⟩
  | bool b => exact ⟨_, rfl⟩
  | num n =>
    cases n with
    | none => exact absurd h id
    | some n => exact ⟨_, rfl⟩
  | str t =>
    cases t with
    | none => exact absurd h id
    | some t => exact ⟨_, rfl⟩
  | broken fault => exact absurd h id
  | arr items fault =>
    cases room with
    | zero => cases h.1
    | succ room =>
      obtain ⟨rfl, hitems⟩ := h
      have hwhole : ∀ d ∈ items, ∃ x, d.whole room = .ok x :=
        fun d hd => hitems ⟨room, d⟩ (List.mem_map_of_mem hd)
      obtain ⟨xs, hxs, -⟩ := Read.mapM_ok_of_forall hwhole
      rw [← Draft.wholeItems_eq_mapM] at hxs
      exact ⟨.arr xs, by simp [whole, Draft.whole, hxs, Read.finish]⟩
  | obj members stop =>
    cases room with
    | zero => cases h.1
    | succ room =>
      cases hmembers : Cursor.textMembers room members stop with
      | mk ns stop' =>
        have hview : Source.view (⟨room + 1, .obj members stop⟩ : Cursor) = .map ns stop' := by
          simp [Source.view, Cursor.view, hmembers]
        rw [hview] at h
        obtain ⟨rfl, hns⟩ := h
        obtain ⟨rfl, ms, hms⟩ := Draft.whole_of_textMembers hmembers hns
        exact ⟨.obj ms, by simp [whole, Draft.whole, hms, Read.finish, MapEnd.fault?]⟩

-- ---------------------------------------------------------------------------
-- Thorough readers
-- ---------------------------------------------------------------------------

namespace Read

variable {α μ : Type}

/-- A reader that reads nothing from a text unless the whole is there. -/
def Thorough (read : Cursor → Read α) : Prop :=
  ∀ c a, read c = .ok a → ∃ v, whole c = .ok v

theorem thorough_bool : Thorough bool := by
  intro c a h
  unfold bool at h
  split at h
  · rename_i hview
    exact c.whole_of_view (by rw [hview]; trivial)
  · cases h

theorem thorough_text : Thorough text := by
  intro c a h
  unfold text textAs at h
  split at h
  · rename_i hview
    exact c.whole_of_view (by rw [hview]; trivial)
  · cases h

theorem thorough_json : Thorough json := by
  intro c a h
  unfold json at h
  cases hwhole : whole c with
  | error e => simp [hwhole, Except.map] at h
  | ok v => exact ⟨v, rfl⟩

theorem Thorough.optional {read : Cursor → Read α} (hread : Thorough read) :
    Thorough (optional read) := by
  intro c a h
  unfold Read.optional at h
  split at h
  · rename_i hview
    exact c.whole_of_view (by rw [hview]; trivial)
  · cases hr : read c with
    | error e => simp [hr, Except.map] at h
    | ok b => exact hread c b hr

theorem all_of_mapM {τ : Type} {f : τ → Read α} {items : List τ} {xs : List α}
    (h : items.mapM f = .ok xs) : ∀ i ∈ items, ∃ x, f i = .ok x := by
  induction items generalizing xs with
  | nil => simp
  | cons i items ih =>
    rw [List.mapM_cons] at h
    obtain ⟨x, hi, h⟩ := bind_eq_ok h
    obtain ⟨rest, hrest, -⟩ := bind_eq_ok h
    exact List.forall_mem_cons.mpr ⟨⟨x, hi⟩, ih hrest⟩

theorem Thorough.list {read : Cursor → Read α} (hread : Thorough read) : Thorough (list read) := by
  intro c a h
  unfold Read.list at h
  split at h
  · rename_i items fault hview
    obtain ⟨xs, hxs, h⟩ := bind_eq_ok h
    obtain ⟨u, hfault, -⟩ := bind_eq_ok h
    refine c.whole_of_view ?_
    rw [hview]
    refine ⟨Draft.finish_eq_ok hfault, fun i hi => ?_⟩
    obtain ⟨x, hx⟩ := all_of_mapM hxs i hi
    exact hread i x hx
  · cases h

theorem Thorough.map {read : Cursor → Read α} (hread : Thorough read) : Thorough (map read) := by
  intro c a h
  unfold Read.map at h
  split at h
  · rename_i members stop hview
    obtain ⟨ms, hms, h⟩ := bind_eq_ok h
    obtain ⟨u, hstop, -⟩ := bind_eq_ok h
    refine c.whole_of_view ?_
    rw [hview]
    refine ⟨Draft.closed_of_finish hstop, fun m hm => ?_⟩
    obtain ⟨e, he⟩ := all_of_mapM hms m hm
    obtain ⟨x, hx, -⟩ := bind_eq_ok he
    exact hread m.2 x hx
  · cases h

theorem thorough_blob : Thorough blob := thorough_json.map

theorem thorough_unit : Thorough unit := by
  intro c a h
  unfold unit at h
  split at h
  · rename_i hview
    exact c.whole_of_view (by rw [hview]; trivial)
  · rename_i hmanner
    cases hmanner
  · cases h

theorem thorough_name (table : List (String × α)) : Thorough (name table) := by
  intro c a h
  unfold name at h
  split at h
  · rename_i hview
    exact c.whole_of_view (by rw [hview]; trivial)
  · cases h
  · rename_i t content stop hview _
    obtain ⟨b, -, h⟩ := bind_eq_ok h
    obtain ⟨u, hunit, h⟩ := bind_eq_ok h
    refine c.whole_of_view ?_
    rw [hview]
    refine ⟨?_, by simpa using thorough_unit content u hunit⟩
    cases stop with
    | closed => rfl
    | fault f => cases h
    | noKey f => cases h
  · obtain ⟨b, -, h⟩ := bind_eq_ok h
    obtain ⟨u, -, h⟩ := bind_eq_ok h
    cases h
  · rename_i hmanner
    exact (hmanner rfl).elim
  all_goals cases h

end Read

namespace Record

variable {μ : Type} {r : Record Cursor μ}

theorem thorough_readMembers (hread : ∀ field, Read.Thorough (r.read field))
    (hother : ∀ key, Read.Thorough (r.other key)) {seen : List String}
    {members : List (String × Cursor)} {ms : List μ} (h : r.readMembers seen members = .ok ms) :
    ∀ m ∈ members, ∃ v, whole m.2 = .ok v := by
  induction members generalizing seen ms with
  | nil => simp
  | cons m members ih =>
    obtain ⟨key, c⟩ := m
    rw [readMembers] at h
    split at h
    · split at h
      · cases h
      · obtain ⟨x, hx, h⟩ := bind_eq_ok h
        obtain ⟨xs, hxs, -⟩ := bind_eq_ok h
        exact List.forall_mem_cons.mpr ⟨hread _ c x hx, ih hxs⟩
    · obtain ⟨x, hx, h⟩ := bind_eq_ok h
      obtain ⟨xs, hxs, -⟩ := bind_eq_ok h
      exact List.forall_mem_cons.mpr ⟨hother key c x hx, ih hxs⟩

theorem thorough_ofMap (hread : ∀ field, Read.Thorough (r.read field))
    (hother : ∀ key, Read.Thorough (r.other key)) : Read.Thorough r.ofMap := by
  intro c ms h
  unfold ofMap at h
  split at h
  · rename_i members stop hview
    obtain ⟨xs, hxs, h⟩ := bind_eq_ok h
    obtain ⟨u, hstop, -⟩ := bind_eq_ok h
    refine c.whole_of_view ?_
    rw [hview]
    exact ⟨Draft.closed_of_finish hstop, thorough_readMembers hread hother hxs⟩
  · cases h

end Record

namespace Read

theorem Thorough.bind {α β : Type} {read : Cursor → Read α} (hread : Thorough read)
    (f : α → Read β) : Thorough fun c => read c >>= f := by
  intro c b h
  obtain ⟨a, ha, -⟩ := bind_eq_ok h
  exact hread c a ha

theorem Thorough.fmap {α β : Type} {read : Cursor → Read α} (hread : Thorough read)
    (f : α → β) : Thorough fun c => f <$> read c := by
  intro c b h
  obtain ⟨a, ha, -⟩ := map_eq_ok h
  exact hread c a ha

end Read

end ShellSettings
