import ShellSettings.Proofs.Cli.SessionLaws

/-!
# The settings file changes as a whole or not at all

A run that fails, and one that only looks, leaves the settings file as it was. One
that changes the document and ends well leaves the text of the document that the
command comes to, or the old text where there is nothing to save
(`run_all_or_nothing`).
-/

namespace ShellSettings.Cli

def Command.Changes : Command → Prop
  | .change _ | .patch _ _ | .prune _ => True
  | .check _ fix => fix = true
  | .print _ | .effective _ | .effectiveAll _ _ | .wallpaper _ _ => False

/-- The store that a command comes to, if it does, from a store without a document, the catalogs in
the files and the document that was read. -/
inductive Command.Leaves (s : Store) (t : FileTree) (d : Document) : Command → Store → Prop
  | change {c reply next} (h : (s.install d).1.execute c = (.ok reply, next)) :
    Leaves s t d (.change c) next
  | patch {p text v reply next} (value : ShellSettings.readText Read.json text = .ok v)
    (h : (s.install d).1.execute (.patch p v) = (.ok reply, next)) :
    Leaves s t d (.patch p text) next
  | prune {p feed} (h : readCatalog p t = .ok feed) :
    Leaves s t d (.prune p) ((s.install d).1.applyCatalog feed).1
  | fix {ps feeds} (h : ps.mapM (readCatalog · t) = .ok feeds) :
    Leaves s t d (.check ps true) ((s.publishAll feeds).install d).1

variable {env : Environment} {tuning : Tuning} {path : FilePath} {t : FileTree} {content : Content}
  {client : Client} {text : String} {d : Document} {host : DiskHost} {command : Command}
  {result : Output × FileTree}

-- ---------------------------------------------------------------------------
-- Opening a file that is there
-- ---------------------------------------------------------------------------

/-- What is read where the settings file is there: the client, the document and the host that has
read it, which changes no file. -/
structure Opening (env : Environment) (tuning : Tuning) (path : FilePath) (t : FileTree)
    (content : Content) (client : Client) (text : String) (d : Document) (host : DiskHost) :
    Prop where
  client : Client.ofTuning tuning env.ids = .ok client
  content : content = .text text
  read : Document.ofText? text = .ok d
  path : host.path = path
  tree : host.tree = t
  drained : host.inbox = []

theorem openSession_of_find (shown : t.find path = .ok (.file content)) (feeds : List Feed) :
    (∃ output, openSession env tuning path feeds t = (.error output, t) ∧ output.code ≠ 0) ∨
      ∃ client text d host, Opening env tuning path t content client text d host ∧
        openSession env tuning path feeds t = (.ok (.holding
          { client with store := client.store.publishAll feeds } host d env.now), t) := by
  rw [openSession_eq]
  cases hclient : Client.ofTuning tuning env.ids with
  | error e => exact .inl ⟨_, rfl, Nat.one_ne_zero⟩
  | ok client =>
    cases hr : DiskHost.readDocument t path with
    | error e =>
      have hload : DiskHost.load { path, tree := t } none = (.error e, { path, tree := t }) := by
        refine Eq.trans (DiskHost.load_of_find shown) ?_
        simp only [DiskHost.switched, hr]
      rw [hload]
      exact .inl ⟨_, rfl, Nat.one_ne_zero⟩
    | ok d =>
      have hload : DiskHost.load { path, tree := t } none =
          (.ok d, { path, tree := t, lastDigest := some d.digest }) := by
        refine Eq.trans (DiskHost.load_of_find shown) ?_
        simp only [DiskHost.switched, hr]
      obtain ⟨text, hfind, hd⟩ := DiskHost.readDocument_eq_ok.mp hr
      cases hfind.symm.trans shown
      rw [hload]
      exact .inr ⟨client, text, d, _, ⟨hclient, rfl, hd, rfl, rfl, rfl⟩, rfl⟩

-- ---------------------------------------------------------------------------
-- What a result has to be
-- ---------------------------------------------------------------------------

theorem Opened.Concludes.find {o : Opened} {s : Store} {l : Loaded} (h : o.Concludes s result)
    (hl : s.loaded = some l) (shown : o.tree.find o.session.host.path = .ok (.file content)) :
    (result.1.code ≠ 0 → result.2.find o.session.host.path = .ok (.file content)) ∧
      (result.1.code = 0 → result.2.find o.session.host.path =
        .ok (.file (if s.needsSave then .text l.current.toJson.pretty else content))) := by
  cases hs : s.needsSave with
  | false =>
    obtain ⟨-, htree⟩ := h.kept hs
    rw [htree]
    exact ⟨fun _ => shown, fun _ => shown⟩
  | true =>
    obtain ⟨hcode, htree⟩ := h.saved hs l hl
    rw [htree]
    rcases hw : DiskHost.writeDocument o.session.host.path l.current o.tree with ⟨e | _, t'⟩
    · rw [hw] at hcode
      -- The directories on the way may be new, but what was shown before still is.
      have grown := (DiskHost.grows_prepare o.session.host.path o.tree).find shown
      exact ⟨fun _ => (DiskHost.find_of_error hw).mpr grown, fun ended => nomatch hcode.mp ended⟩
    · have ended : result.1.code = 0 := hcode.mpr (congrArg Prod.fst hw)
      refine ⟨fun failed => absurd ended failed, fun _ => ?_⟩
      exact FileTree.readText_eq_ok.mp (DiskHost.readText_writeDocument hw)

/-- What a command has made of the settings file. -/
structure Settles (env : Environment) (tuning : Tuning) (path : FilePath) (t : FileTree)
    (content : Content) (command : Command) (result : Output × FileTree) : Prop where
  kept : result.1.code ≠ 0 ∨ ¬command.Changes → result.2.find path = .ok (.file content)
  saved : result.1.code = 0 → command.Changes → ∃ client text d s l,
    Client.ofTuning tuning env.ids = .ok client ∧ content = .text text ∧
    Document.ofText? text = .ok d ∧ command.Leaves client.store t d s ∧ s.loaded = some l ∧
    result.2.find path =
      .ok (.file (if s.needsSave then .text l.current.toJson.pretty else content))

theorem Settles.of_kept (kept : result.2.find path = .ok (.file content))
    (stopped : result.1.code ≠ 0 ∨ ¬command.Changes) :
    Settles env tuning path t content command result := by
  refine ⟨fun _ => kept, fun ended changes => ?_⟩
  rcases stopped with failed | looks
  · exact absurd ended failed
  · exact absurd changes looks

theorem Command.Leaves.changes {s next : Store} (h : command.Leaves s t d next) :
    command.Changes := by
  cases h with
  | change | patch | prune => trivial
  | fix => rfl

theorem Opening.settles {o : Opened} {s : Store}
    (opening : Opening env tuning path t content client text d host)
    (hhost : o.session.host = host) (shown : t.find path = .ok (.file content))
    (leaves : command.Leaves client.store t d s) (loaded : ∃ l, s.loaded = some l)
    (concludes : o.Concludes s result) : Settles env tuning path t content command result := by
  obtain ⟨l, hl⟩ := loaded
  have htree : o.tree = t := (congrArg DiskHost.tree hhost).trans opening.tree
  have hpath : o.session.host.path = path := (congrArg DiskHost.path hhost).trans opening.path
  obtain ⟨kept, saved⟩ := concludes.find hl (by rwa [htree, hpath])
  rw [hpath] at kept saved
  refine ⟨?_, fun ended _ => ?_⟩
  · rintro (failed | looks)
    · exact kept failed
    · exact absurd leaves.changes looks
  · exact ⟨client, text, d, s, l, opening.client, opening.content, opening.read, leaves, hl,
      saved ended⟩

-- ---------------------------------------------------------------------------
-- Every command
-- ---------------------------------------------------------------------------

theorem Opening.ready (opening : Opening env tuning path t content client text d host) {s : Store} :
    (Opened.holding { client with store := s } host d env.now).Ready := by
  obtain ⟨timed, idle, -⟩ := ofTuning_eq_ok opening.client
  exact ⟨idle, opening.drained, timed⟩

theorem Opening.settles_view (opening : Opening env tuning path t content client text d host)
    (shown : t.find path = .ok (.file content)) (looks : ¬command.Changes)
    (look : Store → Except StoreError Output) :
    Settles env tuning path t content command
      ((Opened.holding client host d env.now).view look) := by
  have htree : ((Opened.holding client host d env.now).view look).2 = t := by
    unfold Opened.view
    split
    · exact opening.tree
    · exact opening.tree
  exact .of_kept (by rwa [htree]) (.inr looks)

/-- A store command that is refused leaves the file alone, and one that is accepted has its store
saved. -/
theorem Opening.settles_change {c : StoreCommand}
    (opening : Opening env tuning path t content client text d host)
    (shown : t.find path = .ok (.file content)) (edits : c.IsEdit)
    (leaves : ∀ reply next, (client.store.install d).1.execute c = (.ok reply, next) →
      command.Leaves client.store t d next) :
    Settles env tuning path t content command
      ((Opened.holding client host d env.now).change env.now c) := by
  have hd : d.WellFormed := Document.wellFormed_of_ofText? opening.read
  have edited := Store.edited_execute (s := (client.store.install d).1) edits
  -- A refused command leaves before the store is looked at; `Opened.Concludes` covers the other.
  rcases hc : (client.store.install d).1.execute c with ⟨e | reply, next⟩
  · have hresult : (Opened.holding client host d env.now).change env.now c =
        (.failure ("Error: " ++ e.message), host.tree) := by
      unfold Opened.change
      rw [show (Opened.holding client host d env.now).store.execute c = _ from hc]
      rfl
    rw [hresult, opening.tree]
    exact .of_kept shown (.inl Nat.one_ne_zero)
  · rw [hc] at edited
    have lasting : next.Lasting := (Store.lasting_install _ hd).edited edited
    have loaded := edited.loaded (Store.install_loaded client.store d)
    exact opening.settles rfl shown (leaves reply next hc) loaded
      (opening.ready.concludes_change lasting hc env.now)

theorem Opening.settles_prune {catalog : FilePath} {feed : Feed}
    (opening : Opening env tuning path t content client text d host)
    (shown : t.find path = .ok (.file content)) (hcatalog : readCatalog catalog t = .ok feed) :
    Settles env tuning path t content (.prune catalog)
      ((Opened.holding client host d env.now).prune env.now feed) := by
  have hd : d.WellFormed := Document.wellFormed_of_ofText? opening.read
  have edited : (client.store.install d).1.Edited
      ((client.store.install d).1.applyCatalog feed).1 := .published feed rfl
  have lasting := (Store.lasting_install client.store hd).edited edited
  have loaded := edited.loaded (Store.install_loaded client.store d)
  exact opening.settles rfl shown (.prune hcatalog) loaded
    (opening.ready.concludes_prune lasting env.now)

theorem Opening.settles_check {catalogs : List FilePath} {feeds : List Feed} {fix : Bool}
    (opening : Opening env tuning path t content client text d host)
    (shown : t.find path = .ok (.file content))
    (hcatalogs : catalogs.mapM (readCatalog · t) = .ok feeds) :
    Settles env tuning path t content (.check catalogs fix)
      ((Opened.holding { client with store := client.store.publishAll feeds } host d env.now).check
        env.now fix) := by
  have hd : d.WellFormed := Document.wellFormed_of_ofText? opening.read
  have holds := Store.holds_install (client.store.publishAll feeds) d
  obtain ⟨hget, -, -, dropped⟩ := holds.shows
  obtain ⟨revision, hl⟩ := holds
  cases fix with
  | false =>
    -- Whatever dangles is only reported, with either exit code.
    have htree : ((Opened.holding { client with store := client.store.publishAll feeds } host d
        env.now).check env.now false).2 = t := by
      unfold Opened.check
      split
      · exact opening.tree
      · dsimp only
        split
        · exact opening.tree
        · exact opening.tree
    exact .of_kept (by rwa [htree]) (.inr Bool.false_ne_true)
  | true =>
    have lasting := Store.lasting_install (client.store.publishAll feeds) hd
    exact opening.settles rfl shown (.fix hcatalogs) ⟨_, hl⟩
      (opening.ready.concludes_fix lasting hl dropped env.now)

theorem code_of_readCatalog {catalog : FilePath} {output : Output}
    (h : readCatalog catalog t = .error output) : output.code ≠ 0 := by
  unfold readCatalog at h
  dsimp only at h
  split at h
  · cases h
    exact Nat.one_ne_zero
  · split at h
    · cases h
      exact Nat.one_ne_zero
    · cases h

theorem code_of_readCatalogs {catalogs : List FilePath} {output : Output}
    (h : catalogs.mapM (readCatalog · t) = .error output) : output.code ≠ 0 := by
  induction catalogs with
  | nil => cases h
  | cons catalog catalogs ih =>
    rw [List.mapM_cons] at h
    cases hc : readCatalog catalog t with
    | error e =>
      rw [hc] at h
      cases h
      exact code_of_readCatalog hc
    | ok feed =>
      cases hcs : catalogs.mapM (readCatalog · t) with
      | error e =>
        rw [hc, hcs] at h
        cases h
        exact ih hcs
      | ok feeds =>
        rw [hc, hcs] at h
        cases h

/-- Where the document cannot be read the run ends there, with the file as it was. -/
theorem Settles.of_opened (shown : t.find path = .ok (.file content)) (feeds : List Feed)
    (next : Opened → Output × FileTree)
    (h : ∀ client text d host, Opening env tuning path t content client text d host →
      Settles env tuning path t content command
        (next (.holding { client with store := client.store.publishAll feeds } host d env.now))) :
    Settles env tuning path t content command
      (match openSession env tuning path feeds t with
        | (.error output, t) => (output, t)
        | (.ok o, _) => next o) := by
  rcases openSession_of_find shown feeds with ⟨output, hopen, failed⟩ | ⟨_, _, _, _, opening, hopen⟩
  · rw [hopen]
    exact .of_kept shown (.inl failed)
  · rw [hopen]
    exact h _ _ _ _ opening

theorem Command.run_settles (shown : t.find path = .ok (.file content))
    (edits : ∀ c, command = .change c → c.IsEdit) :
    Settles env tuning path t content command (command.run env tuning path t) := by
  cases command with
  | print p => exact .of_opened shown [] _ fun _ _ _ _ opening => opening.settles_view shown id _
  | effective p =>
    exact .of_opened shown [] _ fun _ _ _ _ opening => opening.settles_view shown id _
  | effectiveAll widget monitor =>
    exact .of_opened shown [] _ fun _ _ _ _ opening => opening.settles_view shown id _
  | wallpaper monitor workspace =>
    exact .of_opened shown [] _ fun _ _ _ _ opening => opening.settles_view shown id _
  | change c =>
    -- The commands above have only to leave the file alone; from here on they may write it.
    refine .of_opened shown [] _ fun _ _ _ _ opening => ?_
    exact opening.settles_change shown (edits c rfl) fun _ _ => .change
  | patch p text =>
    -- The value is read before the document, so a bad one stops the run with the files untouched.
    unfold run
    dsimp only
    split
    · exact .of_kept shown (.inl (Nat.succ_ne_zero 1))
    · rename_i v hv
      refine .of_opened shown [] _ fun _ _ _ _ opening => ?_
      exact opening.settles_change shown trivial fun _ _ => .patch hv
  | prune catalog =>
    unfold run
    dsimp only
    split
    · rename_i output hc
      exact .of_kept shown (.inl (code_of_readCatalog hc))
    · rename_i feed hc
      refine .of_opened shown [] _ fun _ _ _ _ opening => ?_
      exact opening.settles_prune shown hc
  | check catalogs fix =>
    unfold run
    dsimp only
    split
    · rename_i output hc
      exact .of_kept shown (.inl (code_of_readCatalogs hc))
    · rename_i feeds hc
      refine .of_opened shown feeds _ fun _ _ _ _ opening => ?_
      exact opening.settles_check shown hc

-- ---------------------------------------------------------------------------
-- Every run
-- ---------------------------------------------------------------------------

def settings? (env : Environment) (args : List String) (t : FileTree) : Option FilePath := do
  let inv ← (Invocation.ofArguments args).toOption
  let tuning ← (inv.tuning env.home t).toOption
  (inv.settingsPath env.home tuning).toOption

/-- The arguments can ask for an edit, but not for a document to be put in place of the loaded
one. -/
theorem isEdit_of_command? {g : Given} {c : StoreCommand}
    (h : Invocation.command? g = some (.change c)) : c.IsEdit := by
  unfold Invocation.command? at h
  split at h
  -- Two commands come in several shapes; the words alone settle the others.
  case h_2 => split at h <;> cases h
  case h_4 =>
    cases hslot : Invocation.slot? (g.value? "monitor") (g.value? "workspace") with
    | none => simp [hslot] at h
    | some slot =>
      rw [hslot] at h
      dsimp only [bind, Option.bind] at h
      split at h
      · cases h
        trivial
      · cases h
        trivial
      · cases h
  all_goals
    cases h
    try trivial

theorem isEdit_of_ofArguments {args : List String} {inv : Invocation} {c : StoreCommand}
    (h : Invocation.ofArguments args = .ok inv) (hc : inv.command = .change c) : c.IsEdit := by
  obtain ⟨g, -, h⟩ := bind_eq_ok h
  split at h
  · cases h
  · rename_i command hcommand
    cases h
    cases hc
    exact isEdit_of_command? hcommand

/-- A run that fails, or one that was not to change anything, leaves the settings file as it was. One
that was to change the document and ends well leaves the text of the document it came to, or the old
text if there was nothing to save. -/
theorem run_all_or_nothing {args : List String} (shown : t.find path = .ok (.file content))
    (settings : ∀ p ∈ settings? env args t, p = path) :
    ((run env args t).1.code ≠ 0 ∨
        (∀ inv, Invocation.ofArguments args = .ok inv → ¬inv.command.Changes) →
      (run env args t).2.find path = .ok (.file content)) ∧
    ∀ inv, Invocation.ofArguments args = .ok inv → inv.command.Changes →
      (run env args t).1.code = 0 → ∃ tuning client text d s next,
        inv.tuning env.home t = .ok tuning ∧ Client.ofTuning tuning env.ids = .ok client ∧
        content = .text text ∧ Document.ofText? text = .ok d ∧
        inv.command.Leaves client.store t d s ∧ s.get = .ok next ∧
        (run env args t).2.find path =
          .ok (.file (if s.needsSave then .text next.toJson.pretty else content)) := by
  cases hinv : Invocation.ofArguments args with
  | error stop =>
    have hrun : (run env args t).2 = t := by simp only [run, hinv]
    rw [hrun]
    refine ⟨fun _ => shown, ?_⟩
    intro inv accepted
    cases accepted
  | ok inv =>
    have hrun : run env args t = inv.run env t := by simp only [run, hinv]
    rw [hrun]
    unfold Invocation.run
    cases htuning : inv.tuning env.home t with
    | error e => exact ⟨fun _ => shown, fun _ _ _ ended => nomatch ended⟩
    | ok tuning =>
      dsimp only
      cases hpath : inv.settingsPath env.home tuning with
      | error e => exact ⟨fun _ => shown, fun _ _ _ ended => nomatch ended⟩
      | ok p =>
        obtain rfl : p = path := by
          apply settings
          simp [settings?, hinv, htuning, hpath, Except.toOption]
        have edits : ∀ c, inv.command = .change c → c.IsEdit := fun _ => isEdit_of_ofArguments hinv
        have settles : Settles env tuning p t content inv.command
            (inv.command.run env tuning p t) := Command.run_settles shown edits
        constructor
        · rintro (failed | looks)
          · exact settles.kept (.inl failed)
          · exact settles.kept (.inr (looks inv rfl))
        · intro inv' hinv' changes ended
          obtain rfl := Except.ok.inj hinv'
          obtain ⟨client, text, d, s, l, hclient, htext, hd, leaves, hl, hfind⟩ :=
            settles.saved ended changes
          exact ⟨tuning, client, text, d, s, l.current, htuning, hclient, htext, hd, leaves,
            Store.get_of_loaded hl, hfind⟩

-- ---------------------------------------------------------------------------
-- A collection in a file without any
-- ---------------------------------------------------------------------------

def nowhere : Environment where
  home := none
  ids := ⟨fun _ => "sea", 0⟩
  now := 0

/-- A directory with a document that leaves everything to the defaults. -/
def terse : FileTree := ⟨[], [(["settings.json"], .file (.text "\x7b\x7d"))]⟩

def createFjords : List String := ["-f", "settings.json", "collection", "create", "Fjords"]

def withFjords : Document where
  collections := [{ id := "sea", name := "Fjords", resources := [] }]

def terseOpened : Opened := .holding { store := { ids := nowhere.ids } }
  { path := ⟨"settings.json"⟩, tree := terse, lastDigest := some ({} : Document).digest } {} 0

def fjordsStore : Store := (terseOpened.store.createCollection "Fjords" []).2

theorem openSession_terse :
    openSession nowhere {} ⟨"settings.json"⟩ [] terse = (.ok terseOpened, terse) := by
  have hload : DiskHost.load { path := ⟨"settings.json"⟩, tree := terse } none =
      (.ok {}, terseOpened.session.host) := DiskHost.load_of_find rfl
  rw [openSession_eq, hload]
  rfl

theorem execute_terse : terseOpened.store.execute (.createCollection "Fjords" []) =
    (.ok (.id "sea"), fjordsStore) := rfl

theorem fjordsStore_loaded : fjordsStore.loaded =
    some { current := withFjords, snapshot := {}, revision := 1, repaired := false } := rfl

theorem fjordsStore_needsSave : fjordsStore.needsSave = true := by decide

theorem code_change_terse :
    (terseOpened.change 0 (.createCollection "Fjords" [])).1.code = 0 := by
  have ready : terseOpened.Ready := ⟨rfl, rfl, nofun⟩
  have lasting : terseOpened.store.Lasting :=
    Store.lasting_install { ids := nowhere.ids } Document.wellFormed_default
  have edited : terseOpened.store.Edited fjordsStore := Store.edited_createCollection "Fjords" []
  have concludes := ready.concludes_change (lasting.edited edited) execute_terse 0
  have written : (DiskHost.writeDocument ⟨"settings.json"⟩ withFjords terse).1 = .ok () := rfl
  exact (concludes.saved fjordsStore_needsSave _ fjordsStore_loaded).1.mpr written

theorem code_createFjords : (run nowhere createFjords terse).1.code = 0 := by
  have hrun : run nowhere createFjords terse =
      match openSession nowhere {} ⟨"settings.json"⟩ [] terse with
      | (.error output, t) => (output, t)
      | (.ok o, _) => o.change 0 (.createCollection "Fjords" []) := rfl
  rw [hrun, openSession_terse]
  exact code_change_terse

theorem run_all_or_nothing_createFjords :
    terse.find ⟨"settings.json"⟩ = .ok (.file (.text "\x7b\x7d")) ∧
      (∀ p ∈ settings? nowhere createFjords terse, p = ⟨"settings.json"⟩) ∧
      (run nowhere createFjords terse).2.find ⟨"settings.json"⟩ =
        .ok (.file (.text withFjords.toJson.pretty)) := by
  have shown : terse.find ⟨"settings.json"⟩ = .ok (.file (.text "\x7b\x7d")) := rfl
  have settings : ∀ p ∈ settings? nowhere createFjords terse, p = ⟨"settings.json"⟩ := by
    rintro p ⟨⟩
    rfl
  obtain ⟨-, changes⟩ := run_all_or_nothing shown settings
  obtain ⟨tuning, client, text, d, s, next, htuning, hclient, htext, hd, leaves, hnext, hfind⟩ :=
    changes _ rfl trivial code_createFjords
  -- Everything on the way to the document is determined, so the store has to be `fjordsStore`.
  cases htuning
  cases hclient
  cases htext
  cases hd
  cases leaves with
  | change accepted =>
    cases accepted
    cases hnext
    exact ⟨shown, settings, hfind⟩

end ShellSettings.Cli
