import ShellSettings.Proofs.Cli.SessionLaws

/-!
# Pruning and fixing leave the same files

Pruning loads the document first and publishes the catalog then; fixing does it
the other way round. The store comes to hold the same document either way, and
has something to save either way or not at all, so the same is written
(`Command.run_prune_eq_fix`). Both are cases of catalogs and a document that come
in any order (`catalogs_commute`).
-/

namespace ShellSettings.Cli

variable {env : Environment} {tuning : Tuning} {path : FilePath} {t : FileTree} {d : Document}

theorem inbox_load (h : DiskHost) (again : Option String) : (h.load again).2.inbox = h.inbox := by
  have hinbox := DiskHost.inbox_request h (.load "" again)
  rwa [DiskHost.request_load rfl, HostRequest.path?_load] at hinbox

theorem Opened.Concludes.tree_eq {o o' : Opened} {s s' : Store} {l l' : Loaded}
    {result result' : Output × FileTree} (h : o.Concludes s result) (h' : o'.Concludes s' result')
    (hhost : o.session.host = o'.session.host) (hneeds : s.needsSave = s'.needsSave)
    (hl : s.loaded = some l) (hl' : s'.loaded = some l') (hd : l.current = l'.current) :
    result.2 = result'.2 := by
  have htree : o.tree = o'.tree := congrArg DiskHost.tree hhost
  cases hs : s.needsSave with
  | false => rw [(h.kept hs).2, (h'.kept (hneeds ▸ hs)).2, htree]
  | true => rw [(h.saved hs l hl).2, (h'.saved (hneeds ▸ hs) l' hl').2, htree, hhost, hd]

/-- Whether the catalog comes after the document or before it, the files end up the same. -/
theorem Opened.prune_eq_fix {client : Client} {host : DiskHost} {feed : Feed}
    (uncataloged : client.store.catalog = .empty) (idle : client.guard = .idle)
    (timed : client.config.echoTimeout ≠ some 0) (drained : host.inbox = [])
    (hd : d.WellFormed) (now : Nat) :
    ((holding client host d now).prune now feed).2 =
      ((holding { client with store := client.store.publishAll [feed] } host d now).check
        now true).2 := by
  -- Both stores hold the same document, one by pruning what is there and one on loading.
  let after := holding client host d now
  let before := holding { client with store := client.store.publishAll [feed] } host d now
  have ready : after.Ready := ⟨idle, drained, timed⟩
  have ready' : before.Ready := ⟨idle, drained, timed⟩
  have lasting : after.store.Lasting := Store.lasting_install _ hd
  have lasting' : before.store.Lasting := Store.lasting_install _ hd
  have unknown : after.store.catalog.ids? feed.kind = none :=
    congrArg (Catalog.ids? · feed.kind) uncataloged
  have holds : after.store.Holds d.normalize := Store.holds_install _ d
  have holds' : before.store.Holds d.normalize := Store.holds_install _ d
  have pruned := holds.applyCatalog unknown
  have catalogs : (after.store.applyCatalog feed).1.catalog = before.store.catalog := by
    have published : before.store.catalog = client.store.catalog.publish feed.kind feed.ids :=
      Store.applyCatalog_catalog (s := client.store) feed
    rw [published, Store.applyCatalog_catalog]
    rfl
  obtain ⟨-, -, -, needs⟩ := pruned.shows
  obtain ⟨-, -, -, needs'⟩ := holds'.shows
  obtain ⟨_, hl⟩ := pruned
  obtain ⟨_, hl'⟩ := holds'
  have pruning := ready.concludes_prune (lasting.edited (.published feed rfl)) now
  have fixing := ready'.concludes_fix lasting' hl' needs' now
  refine pruning.tree_eq fixing rfl ?_ hl hl' ?_
  · rw [needs, needs', catalogs]
  · exact congrArg (fun c => (d.normalize.repair c).1) catalogs

theorem Command.run_prune_eq_fix (catalog : FilePath) (env : Environment) (tuning : Tuning)
    (path : FilePath) (t : FileTree) :
    ((Command.prune catalog).run env tuning path t).2 =
      ((Command.check [catalog] true).run env tuning path t).2 := by
  cases hc : readCatalog catalog t with
  | error output => simp [Command.run, hc, bind, Except.bind]
  | ok feed =>
    -- Both commands read the catalog first, and the same document after it.
    have feeds : [catalog].mapM (readCatalog · t) = .ok [feed] := by
      simp [hc, bind, Except.bind, pure, Except.pure]
    simp only [Command.run, hc, feeds, openSession_eq]
    cases hclient : Client.ofTuning tuning env.ids with
    | error e => rfl
    | ok client =>
      obtain ⟨timed, idle, uncataloged⟩ := ofTuning_eq_ok hclient
      have hinbox := inbox_load { path, tree := t } none
      rcases hload : DiskHost.load { path, tree := t } none with ⟨e | d, host⟩
      · rfl
      · rw [hload] at hinbox
        have hd : d.WellFormed := DiskHost.wellFormed_of_load (congrArg Prod.fst hload)
        exact Opened.prune_eq_fix uncataloged idle timed hinbox hd env.now

/-- Catalogs of different kinds, none of which was published before, and a document may come in any
order: the store ends up with the document repaired by all of them, clean, and to be saved just if
something was dropped. So pruning by a catalog and fixing by it leave the same files. -/
theorem catalogs_commute {s : Store} {feeds : List Feed} (distinct : (feeds.map Feed.kind).Nodup)
    (unknown : ∀ feed ∈ feeds, s.catalog.ids? feed.kind = none) (d : Document) :
    (∀ before after, (before ++ after).Perm feeds →
      let loaded := ((s.publishAll before).install d).1.publishAll after
      let repaired := d.normalize.repair (s.catalog.publishAll feeds)
      loaded.get = .ok repaired.1 ∧ loaded.snapshot = .ok repaired.1 ∧
        loaded.isDirty = false ∧ loaded.needsSave = !repaired.2.isEmpty) ∧
    ∀ (inv : Invocation) (catalog : FilePath) (pruning fixing : List String),
      Invocation.ofArguments pruning = .ok { inv with command := .prune catalog } →
      Invocation.ofArguments fixing = .ok { inv with command := .check [catalog] true } →
      ∀ env t, (run env pruning t).2 = (run env fixing t).2 := by
  constructor
  · intro before after perm loaded repaired
    obtain ⟨holds, catalogs⟩ := Store.holds_install_publishAll distinct unknown perm d
    have shows := holds.shows
    rw [catalogs] at shows
    exact shows
  · intro inv catalog pruning fixing hprune hfix env t
    unfold run
    rw [hprune, hfix]
    simp only [Invocation.run, Invocation.tuning, Invocation.settingsPath]
    split
    · rfl
    · split
      · rfl
      · exact Command.run_prune_eq_fix catalog env _ _ t

def overfull : Document where
  themes := ["A", "B"]
  collections := [{ id := "sea", name := "Sea", resources := ["fjord", "beach"] }]

def trimmed : Document where
  themes := ["A"]
  collections := [{ id := "sea", name := "Sea", resources := ["fjord"] }]

theorem catalogs_commute_themes_and_wallpapers :
    let s : Store := { ids := ⟨fun _ => "new", 0⟩ }
    let themes := Feed.ofIds .theme ["A"]
    let wallpapers := Feed.ofIds .wallpaper ["fjord"]
    let loaded := ((s.publishAll [wallpapers]).install overfull).1.publishAll [themes]
    let pruning := ["-f", "settings.json", "prune", "themes.json"]
    let fixing := ["-f", "settings.json", "check", "--catalog", "themes.json", "--fix"]
    (([themes, wallpapers].map Feed.kind).Nodup ∧
      ∀ feed ∈ [themes, wallpapers], s.catalog.ids? feed.kind = none) ∧
    loaded.get = .ok trimmed ∧ loaded.isDirty = false ∧ loaded.needsSave = true ∧
    ∀ env t, (run env pruning t).2 = (run env fixing t).2 := by
  intro s themes wallpapers loaded pruning fixing
  have distinct : ([themes, wallpapers].map Feed.kind).Nodup := by decide
  have unknown : ∀ feed ∈ [themes, wallpapers], s.catalog.ids? feed.kind = none := fun _ _ => rfl
  obtain ⟨orders, commands⟩ := catalogs_commute distinct unknown overfull
  obtain ⟨get, -, clean, needs⟩ := orders [wallpapers] [themes] (.swap themes wallpapers [])
  let inv : Invocation := ⟨some ⟨"settings.json"⟩, none, .print ""⟩
  exact ⟨⟨distinct, unknown⟩, get, clean, needs,
    commands inv ⟨"themes.json"⟩ pruning fixing rfl rfl⟩

end ShellSettings.Cli
