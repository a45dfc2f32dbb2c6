import ShellSettings.Document.Basic
import ShellSettings.Json.Record
import ShellSettings.Json.Canonical
import ShellSettings.Digest.Sha256

/-!
# The settings document in JSON

Each record has a type of members. Writing lists the members of a record in
their order and the unknown ones after them by key; reading takes the members
one by one and gathers them. The known keys and the unknown ones never meet:
what reading takes for a field it does not keep as unknown.
-/

namespace ShellSettings

variable {σ : Type} [Source σ]

-- ---------------------------------------------------------------------------
-- Names
-- ---------------------------------------------------------------------------

namespace PerformanceMode

def table : List (String × PerformanceMode) :=
  [("disabled", .disabled), ("minimal", .minimal), ("extreme", .extreme)]

def name : PerformanceMode → String
  | .disabled => "disabled"
  | .minimal => "minimal"
  | .extreme => "extreme"

end PerformanceMode

namespace DesktopStrategy

def table : List (String × DesktopStrategy) := [("native", .native), ("emulated", .emulated)]

def name : DesktopStrategy → String
  | .native => "native"
  | .emulated => "emulated"

end DesktopStrategy

namespace UpdateChannel

def table : List (String × UpdateChannel) :=
  [("release", .release), ("beta", .beta), ("nightly", .nightly)]

def name : UpdateChannel → String
  | .release => "release"
  | .beta => "beta"
  | .nightly => "nightly"

end UpdateChannel

def Map.toJson {α : Type} (write : α → Json) (m : Map α) : Json :=
  .obj (m.entries.map fun e => (e.1, write e.2))

-- ---------------------------------------------------------------------------
-- The updater
-- ---------------------------------------------------------------------------

namespace Updater

inductive Member where
  | channel (c : UpdateChannel)
  | extra (key : String) (value : Json)

namespace Member

def read (field : String) (s : σ) : Read Member :=
  match field with
  | "channel" => .channel <$> Read.name UpdateChannel.table s
  | key => .extra key <$> Read.json s

def other (key : String) (s : σ) : Read (List Member) := return [.extra key (← Read.json s)]

def extra? : Member → Option (String × Json)
  | .extra key value => some (key, value)
  | _ => none

def write : Member → String × Json
  | .channel c => ("channel", .str c.name)
  | .extra key value => (key, value)

end Member

def record : Record σ Member where
  title := "struct UpdaterConfig"
  fields := ["channel"]
  read := Member.read
  other := Member.other

def ofMembers (ms : List Member) : Updater where
  channel := (ms.findSome? fun | .channel c => some c | _ => none).getD .release
  extra := Map.ofList (ms.filterMap Member.extra?)

def members (u : Updater) : List Member :=
  .channel u.channel :: u.extra.entries.map fun e => .extra e.1 e.2

def read (s : σ) : Read Updater := return ofMembers (← record.ofMap s)

def toJson (u : Updater) : Json := .obj (u.members.map Member.write)

end Updater

-- ---------------------------------------------------------------------------
-- Collections
-- ---------------------------------------------------------------------------

namespace Collection

inductive Member where
  | id (s : String)
  | name (s : String)
  | resources (ids : List String)
  | extra (key : String) (value : Json)

namespace Member

def read (field : String) (s : σ) : Read Member :=
  match field with
  | "id" => .id <$> Read.text s
  | "name" => .name <$> Read.text s
  | "resources" => .resources <$> Read.list Read.text s
  | key => .extra key <$> Read.json s

def other (key : String) (s : σ) : Read (List Member) := return [.extra key (← Read.json s)]

def extra? : Member → Option (String × Json)
  | .extra key value => some (key, value)
  | _ => none

def write : Member → String × Json
  | .id s => ("id", .str s)
  | .name s => ("name", .str s)
  | .resources ids => ("resources", .ofStrings ids)
  | .extra key value => (key, value)

end Member

def record : Record σ Member where
  title := "struct Collection"
  fields := ["id", "name", "resources"]
  read := Member.read
  other := Member.other

def ofMembers (ms : List Member) : Read Collection := do
  let id ← Read.require "id" (ms.findSome? fun | .id s => some s | _ => none)
  let name ← Read.require "name" (ms.findSome? fun | .name s => some s | _ => none)
  return {
    id, name
    resources := (ms.findSome? fun | .resources ids => some ids | _ => none).getD []
    extra := Map.ofList (ms.filterMap Member.extra?) }

def members (c : Collection) : List Member :=
  [.id c.id, .name c.name, .resources c.resources] ++ c.extra.entries.map fun e => .extra e.1 e.2

def read (s : σ) : Read Collection := do ofMembers (← record.ofMap s)

def toJson (c : Collection) : Json := .obj (c.members.map Member.write)

end Collection

-- ---------------------------------------------------------------------------
-- Workspaces
-- ---------------------------------------------------------------------------

namespace Workspace

inductive Member where
  | wallpaper (id : Option String)
  | extra (key : String) (value : Json)

namespace Member

def read (field : String) (s : σ) : Read Member :=
  match field with
  | "wallpaperCollection" => .wallpaper <$> Read.optional Read.text s
  | key => .extra key <$> Read.json s

def other (key : String) (s : σ) : Read (List Member) := return [.extra key (← Read.json s)]

def extra? : Member → Option (String × Json)
  | .extra key value => some (key, value)
  | _ => none

def write : Member → String × Json
  | .wallpaper id => ("wallpaperCollection", .ofOption id)
  | .extra key value => (key, value)

end Member

def record : Record σ Member where
  title := "struct WorkspaceConfig"
  fields := ["wallpaperCollection"]
  read := Member.read
  other := Member.other

def ofMembers (ms : List Member) : Workspace where
  wallpaper := (ms.findSome? fun | .wallpaper id => some id | _ => none).getD none
  extra := Map.ofList (ms.filterMap Member.extra?)

def members (w : Workspace) : List Member :=
  .wallpaper w.wallpaper :: w.extra.entries.map fun e => .extra e.1 e.2

def read (s : σ) : Read Workspace := return ofMembers (← record.ofMap s)

def toJson (w : Workspace) : Json := .obj (w.members.map Member.write)

end Workspace

-- ---------------------------------------------------------------------------
-- Monitors
-- ---------------------------------------------------------------------------

namespace Monitor

inductive Member where
  | widgets (m : Map Blob)
  | workspaces (m : Map Workspace)
  | wallpaper (id : Option String)
  | extra (key : String) (value : Json)

namespace Member

def read (field : String) (s : σ) : Read Member :=
  match field with
  | "byWidget" => .widgets <$> Read.map Read.blob s
  | "byWorkspace" => .workspaces <$> Read.map Workspace.read s
  | "wallpaperCollection" => .wallpaper <$> Read.optional Read.text s
  | key => .extra key <$> Read.json s

def other (key : String) (s : σ) : Read (List Member) := return [.extra key (← Read.json s)]

def extra? : Member → Option (String × Json)
  | .extra key value => some (key, value)
  | _ => none

def write : Member → String × Json
  | .widgets m => ("byWidget", m.toJson .ofMap)
  | .workspaces m => ("byWorkspace", m.toJson Workspace.toJson)
  | .wallpaper id => ("wallpaperCollection", .ofOption id)
  | .extra key value => (key, value)

end Member

/-- Workspaces go by two names. -/
def record : Record σ Member where
  title := "struct MonitorConfig"
  fields := ["byWidget", "byWorkspace", "wallpaperCollection"]
  aliases := [("workspaces", "byWorkspace")]
  read := Member.read
  other := Member.other

def ofMembers (ms : List Member) : Monitor where
  widgets := (ms.findSome? fun | .widgets m => some m | _ => none).getD ∅
  workspaces := (ms.findSome? fun | .workspaces m => some m | _ => none).getD ∅
  wallpaper := (ms.findSome? fun | .wallpaper id => some id | _ => none).getD none
  extra := Map.ofList (ms.filterMap Member.extra?)

def members (m : Monitor) : List Member :=
  [.widgets m.widgets, .workspaces m.workspaces, .wallpaper m.wallpaper] ++
    m.extra.entries.map fun e => .extra e.1 e.2

def read (s : σ) : Read Monitor := return ofMembers (← record.ofMap s)

def toJson (m : Monitor) : Json := .obj (m.members.map Member.write)

end Monitor

-- ---------------------------------------------------------------------------
-- Widgets
-- ---------------------------------------------------------------------------

namespace Widget

def enabledKey : String := "enabled"

def instancesKey : String := "instances"

inductive Member where
  | enabled (b : Option Bool)
  | instances (m : Option (Map Blob))
  | setting (key : String) (value : Json)

namespace Member

def read (field : String) (s : σ) : Read Member :=
  match field with
  | "enabled" => .enabled <$> Read.optional Read.bool s
  | "instances" => .instances <$> Read.optional (Read.map Read.blob) s
  | key => .setting key <$> Read.json s

def other (key : String) (s : σ) : Read (List Member) := return [.setting key (← Read.json s)]

def setting? : Member → Option (String × Json)
  | .setting key value => some (key, value)
  | _ => none

def write : Member → Option (String × Json)
  | .enabled b => b.map fun b => (enabledKey, .bool b)
  | .instances m => m.map fun m => (instancesKey, m.toJson .ofMap)
  | .setting key value => some (key, value)

end Member

def record : Record σ Member where
  title := "struct WidgetConfig"
  fields := [enabledKey, instancesKey]
  read := Member.read
  other := Member.other

def ofMembers (ms : List Member) : Widget where
  enabled := (ms.findSome? fun | .enabled b => some b | _ => none).getD none
  instances := (ms.findSome? fun | .instances m => some m | _ => none).getD none
  settings := Map.ofList (ms.filterMap Member.setting?)

def members (w : Widget) : List Member :=
  [.enabled w.enabled, .instances w.instances] ++ w.settings.entries.map fun e => .setting e.1 e.2

def read (s : σ) : Read Widget := return ofMembers (← record.ofMap s)

def toJson (w : Widget) : Json := .obj (w.members.filterMap Member.write)

end Widget

-- ---------------------------------------------------------------------------
-- The document
-- ---------------------------------------------------------------------------

namespace Document

inductive Member where
  | widgets (m : Map Widget)
  | monitors (m : Map Monitor)
  | collections (cs : List Collection)
  | wallpaper (id : Option String)
  | themes (ids : List String)
  | iconPacks (ids : List String)
  | language (s : String)
  | dateFormat (s : String)
  | shortcuts (b : Blob)
  | performance (p : PerformanceMode)
  | desktops (d : DesktopStrategy)
  | hardwareAcceleration (b : Bool)
  | updater (u : Updater)
  | extra (key : String) (value : Json)

namespace Member

def read (field : String) (s : σ) : Read Member :=
  match field with
  | "byWidget" => .widgets <$> Read.map Widget.read s
  | "monitors" => .monitors <$> Read.map Monitor.read s
  | "collections" => .collections <$> Read.list Collection.read s
  | "wallpaperCollection" => .wallpaper <$> Read.optional Read.text s
  | "activeThemes" => .themes <$> Read.list Read.text s
  | "activeIconPacks" => .iconPacks <$> Read.list Read.text s
  | "language" => .language <$> Read.text s
  | "dateFormat" => .dateFormat <$> Read.text s
  | "shortcuts" => .shortcuts <$> Read.blob s
  | "performanceMode" => .performance <$> Read.name PerformanceMode.table s
  | "virtualDesktopStrategy" => .desktops <$> Read.name DesktopStrategy.table s
  | "hardwareAcceleration" => .hardwareAcceleration <$> Read.bool s
  | "updater" => .updater <$> Updater.read s
  | key => .extra key <$> Read.json s

def other (key : String) (s : σ) : Read (List Member) := return [.extra key (← Read.json s)]

def extra? : Member → Option (String × Json)
  | .extra key value => some (key, value)
  | _ => none

def write : Member → String × Json
  | .widgets m => ("byWidget", m.toJson Widget.toJson)
  | .monitors m => ("monitors", m.toJson Monitor.toJson)
  | .collections cs => ("collections", .arr (cs.map Collection.toJson))
  | .wallpaper id => ("wallpaperCollection", .ofOption id)
  | .themes ids => ("activeThemes", .ofStrings ids)
  | .iconPacks ids => ("activeIconPacks", .ofStrings ids)
  | .language s => ("language", .str s)
  | .dateFormat s => ("dateFormat", .str s)
  | .shortcuts b => ("shortcuts", .ofMap b)
  | .performance p => ("performanceMode", .str p.name)
  | .desktops d => ("virtualDesktopStrategy", .str d.name)
  | .hardwareAcceleration b => ("hardwareAcceleration", .bool b)
  | .updater u => ("updater", u.toJson)
  | .extra key value => (key, value)

end Member

def record : Record σ Member where
  title := "struct SettingsDocument"
  fields := ["byWidget", "monitors", "collections", "wallpaperCollection", "activeThemes",
    "activeIconPacks", "language", "dateFormat", "shortcuts", "performanceMode",
    "virtualDesktopStrategy", "hardwareAcceleration", "updater"]
  read := Member.read
  other := Member.other

def ofMembers (ms : List Member) : Document :=
  let start : Document := {}
  { widgets := (ms.findSome? fun | .widgets m => some m | _ => none).getD start.widgets
    monitors := (ms.findSome? fun | .monitors m => some m | _ => none).getD start.monitors
    collections :=
      (ms.findSome? fun | .collections cs => some cs | _ => none).getD start.collections
    wallpaper := (ms.findSome? fun | .wallpaper id => some id | _ => none).getD start.wallpaper
    themes := (ms.findSome? fun | .themes ids => some ids | _ => none).getD start.themes
    iconPacks := (ms.findSome? fun | .iconPacks ids => some ids | _ => none).getD start.iconPacks
    language := (ms.findSome? fun | .language s => some s | _ => none).getD start.language
    dateFormat := (ms.findSome? fun | .dateFormat s => some s | _ => none).getD start.dateFormat
    shortcuts := (ms.findSome? fun | .shortcuts b => some b | _ => none).getD start.shortcuts
    performance :=
      (ms.findSome? fun | .performance p => some p | _ => none).getD start.performance
    desktops := (ms.findSome? fun | .desktops d => some d | _ => none).getD start.desktops
    hardwareAcceleration :=
      (ms.findSome? fun | .hardwareAcceleration b => some b | _ => none).getD
        start.hardwareAcceleration
    updater := (ms.findSome? fun | .updater u => some u | _ => none).getD start.updater
    extra := Map.ofList (ms.filterMap Member.extra?) }

def members (d : Document) : List Member :=
  [.widgets d.widgets, .monitors d.monitors, .collections d.collections, .wallpaper d.wallpaper,
    .themes d.themes, .iconPacks d.iconPacks, .language d.language, .dateFormat d.dateFormat,
    .shortcuts d.shortcuts, .performance d.performance, .desktops d.desktops,
    .hardwareAcceleration d.hardwareAcceleration, .updater d.updater] ++
    d.extra.entries.map fun e => .extra e.1 e.2

def read (s : σ) : Read Document := return ofMembers (← record.ofMap s)

def ofJson? (v : Json) : Read Document := read v

def ofText? (text : String) : Read Document := readText read text

/-- The document in the order in which it is written to files. -/
def toJson (d : Document) : Json := .obj (d.members.map Member.write)

def toValue (d : Document) : Json := d.toJson.sorted

/-- Two documents are the same when they are written the same, `0.0` and `-0.0` being one
number. -/
def same (d e : Document) : Bool := d.toJson.same e.toJson

/-- The SHA-256 digest of the canonical text, in hexadecimal. -/
def digest (d : Document) : String := Sha256.hexDigest d.toJson.canonical

end Document

end ShellSettings
