import ShellSettings.Cli.Command
import ShellSettings.Host.Disk
import ShellSettings.Sync.Session

/-!
# A run of the program

One run takes arguments and a file tree to what is printed, an exit code, and the
file tree afterwards. Every command loads the document from a host on disk; one
that changes it saves before it ends. Faults in the arguments end with code 2,
other failures with code 1.
-/

namespace ShellSettings.Cli

structure Environment where
  home : Option String
  ids : IdSource
  -- The time in milliseconds.
  now : Nat

/-- What a run leaves behind for its caller; the lines have no ends. -/
structure Output where
  code : Nat := 0
  out : List String := []
  err : List String := []
deriving DecidableEq, Repr

namespace Output

def failure (message : String) (out : List String := []) : Output := ⟨1, out, [message]⟩

def refusal (message : String) : Output := ⟨2, [], [message]⟩

def text (lines : List String) : String := String.join (lines.map (· ++ "\n"))

def stdout (o : Output) : String := text o.out

def stderr (o : Output) : String := text o.err

end Output

def Stop.output : Stop → Output
  | .version => ⟨0, ["shellconf 0.1.0"], []⟩
  | .help => ⟨0, usage, []⟩
  | .usage => ⟨2, [], "error: the arguments do not make up a command" :: "" :: usage⟩
where
  usage : List String := [
    "Usage: shellconf [-f FILE] [-c CONFIG] [-v] COMMAND",
    "",
    "Commands:",
    "  show [PATH]",
    "  resolve WIDGET [-i INSTANCE | --all] [-m MONITOR]",
    "  wallpaper resolve MONITOR [-w WORKSPACE]",
    "  wallpaper set (COLLECTION | --clear) [-m MONITOR [-w WORKSPACE]]",
    "  patch PATH VALUE",
    "  instance create WIDGET",
    "  instance delete WIDGET INSTANCE",
    "  collection create NAME [RESOURCE...]",
    "  collection delete ID",
    "  prune CATALOG",
    "  check [--catalog CATALOG]... [--fix]"]

namespace Invocation

/-- Without a home directory there is no file to read, and the defaults hold. -/
def tuning (inv : Invocation) (home : Option String) (t : FileTree) : Except TuningError Tuning :=
  match inv.config, Tuning.defaultPath home with
  | some p, _ => Tuning.load t p
  | none, .ok p => Tuning.loadOrDefault t p
  | none, .error _ => .ok {}

/-- The document named by the arguments, else by the tuning file, else the host's default. -/
def settingsPath (inv : Invocation) (home : Option String) (tuning : Tuning) :
    Except TransportError FilePath :=
  match inv.file <|> tuning.settingsPath.map FilePath.mk with
  | some p => .ok p
  | none => DiskHost.defaultPath home

/-- The files that a run looks at or writes, as far as the tree shows which. -/
def files (inv : Invocation) (home : Option String) (t : FileTree) : List FilePath :=
  let config := inv.config <|> (Tuning.defaultPath home).toOption
  let settings := (inv.tuning home t).toOption.bind fun tuning =>
    (inv.settingsPath home tuning).toOption
  let catalogs := match inv.command with
    | .prune catalog => [catalog]
    | .check catalogs _ => catalogs
    | _ => []
  config.toList ++ (settings.map fun p => [p, DiskHost.besidePath p]).getD [] ++ catalogs

end Invocation

/-- A session whose document is loaded, and the references dropped on the way. -/
structure Opened where
  session : Session DiskHost
  dropped : List Reference

namespace Opened

def store (o : Opened) : Store := o.session.client.store

def tree (o : Opened) : FileTree := o.session.host.tree

end Opened

def openSession (env : Environment) (tuning : Tuning) (path : FilePath) (feeds : List Feed)
    (t : FileTree) : Except Output Opened × FileTree :=
  match Client.ofTuning tuning env.ids with
  | .error e => (.error (.failure ("Error in core config: " ++ e.message)), t)
  | .ok client =>
    let store := feeds.foldl (fun s feed => (s.applyCatalog feed).1) client.store
    let session : Session DiskHost := ⟨{ client with store }, { path, tree := t }⟩
    match session.load none env.now with
    | (.error e, s) =>
      (.error (.failure ("Error loading settings from " ++ path.text ++ ": " ++ e.message)),
        s.host.tree)
    | (.ok dropped, s) => (.ok ⟨s, dropped⟩, s.host.tree)

def readCatalog (p : FilePath) (t : FileTree) : Except Output Feed :=
  let failed := fun (message : String) =>
    .error (.failure ("Error reading catalog " ++ p.text ++ ": " ++ message))
  match t.readText p with
  | .error e => failed e.message
  | .ok text =>
    match Feed.ofText? text with
    | .error e => failed e.message
    | .ok feed => .ok feed

namespace Opened

def view (o : Opened) (look : Store → Except StoreError Output) : Output × FileTree :=
  match look o.store with
  | .error e => (.failure ("Error: " ++ e.message), o.tree)
  | .ok output => (output, o.tree)

/-- Saves, with `before` printed already and `after` to be printed if that succeeds. -/
def save (o : Opened) (now : Nat) (before after : List String) : Output × FileTree :=
  match o.session.save now with
  | (.error e, s) => (.failure ("Error saving settings: " ++ e.message) before, s.host.tree)
  | (.ok (), s) => ({ out := before ++ after }, s.host.tree)

def withStore (o : Opened) (store : Store) : Opened :=
  { o with session := { o.session with client := { o.session.client with store } } }

def report (s : Store) : StoreReply → List String
  | .id id => [id]
  | .references rs => ["Cleared " ++ toString rs.length ++ " reference(s)"]
  | .done =>
    if s.restartRequired then ["Restart required for this change to take effect"] else []

def change (o : Opened) (now : Nat) (c : StoreCommand) : Output × FileTree :=
  match o.store.execute c with
  | (.error e, _) => (.failure ("Error: " ++ e.message), o.tree)
  | (.ok reply, s) =>
    let lines := report s reply
    if s.needsSave then (o.withStore s).save now [] lines else ({ out := lines }, o.tree)

def prune (o : Opened) (now : Nat) (feed : Feed) : Output × FileTree :=
  let (s, pruned) := o.store.applyCatalog feed
  if s.needsSave then
    (o.withStore s).save now [] (pruned.map fun r => "pruned " ++ r.display)
  else ({ out := ["Nothing to prune"] }, o.tree)

def check (o : Opened) (now : Nat) (fix : Bool) : Output × FileTree :=
  match o.store.get with
  | .error e => (.failure ("Error: " ++ e.message), o.tree)
  | .ok d =>
    let digest := "digest: " ++ d.digest
    if o.dropped.isEmpty then ({ out := [digest, "No dangling references"] }, o.tree)
    else
      let lines := digest :: o.dropped.map fun r => "dangling " ++ r.display
      if fix then o.save now lines ["Repaired document saved"]
      else ({ code := 1, out := lines }, o.tree)

end Opened

def printAt (path : String) (s : Store) : Except StoreError Output := do
  let d ← s.get
  match Path.parse path with
  | .error e => return .refusal e.message
  | .ok p =>
    match p.resolve d.toValue with
    | none => return .failure ("Nothing at '" ++ p.display ++ "'")
    | some v => return { out := [v.pretty] }

def printEffective (p : Placement) (s : Store) : Except StoreError Output :=
  return { out := [(← s.effective p).toJson.pretty] }

def printEffectiveAll (widget : String) (monitor : Option String) (s : Store) :
    Except StoreError Output :=
  return { out := [(Json.arr ((← s.effectiveAll widget monitor).map Effective.toJson)).pretty] }

def printWallpaper (monitor : String) (workspace : Option String) (s : Store) :
    Except StoreError Output := do
  let d ← s.get
  match d.activeWallpaper monitor workspace with
  | none => return { out := ["No wallpaper collection active"] }
  | some (id, level) =>
    let name := ((d.collection? id).map (·.name)).getD ""
    return { out := [id ++ " (" ++ name ++ ") from " ++ level.name ++ " level"] }

/-- Runs a command on the document at a path. What the arguments or catalogs get wrong shows
before the document is touched. -/
def Command.run (command : Command) (env : Environment) (tuning : Tuning) (path : FilePath)
    (t : FileTree) : Output × FileTree :=
  let opened := fun (feeds : List Feed) (next : Opened → Output × FileTree) =>
    match openSession env tuning path feeds t with
    | (.error output, t) => (output, t)
    | (.ok o, _) => next o
  match command with
  | .print p => opened [] (·.view (printAt p))
  | .effective p => opened [] (·.view (printEffective p))
  | .effectiveAll widget monitor => opened [] (·.view (printEffectiveAll widget monitor))
  | .wallpaper monitor workspace => opened [] (·.view (printWallpaper monitor workspace))
  | .change c => opened [] (·.change env.now c)
  | .patch p text =>
    match readText Read.json text with
    | .error e => (.refusal ("Patch value is not valid JSON: " ++ e.message), t)
    | .ok v => opened [] (·.change env.now (.patch p v))
  | .prune catalog =>
    match readCatalog catalog t with
    | .error output => (output, t)
    | .ok feed => opened [] (·.prune env.now feed)
  | .check catalogs fix =>
    match catalogs.mapM (readCatalog · t) with
    | .error output => (output, t)
    | .ok feeds => opened feeds (·.check env.now fix)

def Invocation.run (inv : Invocation) (env : Environment) (t : FileTree) : Output × FileTree :=
  match inv.tuning env.home t with
  | .error e => (.failure ("Error loading core config: " ++ e.message), t)
  | .ok tuning =>
    match inv.settingsPath env.home tuning with
    | .error e => (.failure ("Error locating settings: " ++ e.message), t)
    | .ok path => inv.command.run env tuning path t

def run (env : Environment) (args : List String) (t : FileTree) : Output × FileTree :=
  match Invocation.ofArguments args with
  | .error stop => (stop.output, t)
  | .ok inv => inv.run env t

end ShellSettings.Cli
