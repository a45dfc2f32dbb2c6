import ShellSettings.Json.Basic

/-!
# The settings document

One document holds the configuration of every widget and monitor and the
wallpaper collections. Widget settings are free-form: only whether a widget is
enabled, and its instances, mean something here. Every record keeps the members
it does not know in `extra`, and they are written back unchanged.
-/

namespace ShellSettings

inductive PerformanceMode where
  | disabled
  | minimal
  | extreme
deriving DecidableEq, Repr, Inhabited

inductive DesktopStrategy where
  | native
  | emulated
deriving DecidableEq, Repr, Inhabited

inductive UpdateChannel where
  | release
  | beta
  | nightly
deriving DecidableEq, Repr, Inhabited

structure Updater where
  channel : UpdateChannel := .release
  extra : Blob := ∅

structure Collection where
  id : String
  name : String
  resources : List String := []
  extra : Blob := ∅

structure Workspace where
  wallpaper : Option String := none
  extra : Blob := ∅
deriving Inhabited

structure Monitor where
  -- Per widget, the settings that differ on this monitor.
  widgets : Map Blob := ∅
  workspaces : Map Workspace := ∅
  wallpaper : Option String := none
  extra : Blob := ∅
deriving Inhabited

structure Widget where
  -- A widget that does not say is enabled.
  enabled : Option Bool := none
  -- Per instance, the settings that differ from the widget's own.
  instances : Option (Map Blob) := none
  settings : Blob := ∅
deriving Inhabited

structure Document where
  widgets : Map Widget := ∅
  monitors : Map Monitor := ∅
  -- Wallpaper collections in display order.
  collections : List Collection := []
  -- The collection shown where no monitor or workspace names one.
  wallpaper : Option String := none
  -- Active themes, the strongest last.
  themes : List String := []
  -- Active icon packs, the strongest last.
  iconPacks : List String := []
  language : String := "en"
  dateFormat : String := "ddd D MMM, hh:mm A"
  -- Key chords by action.
  shortcuts : Blob := ∅
  performance : PerformanceMode := .disabled
  desktops : DesktopStrategy := .native
  hardwareAcceleration : Bool := true
  updater : Updater := {}
  extra : Blob := ∅

namespace Widget

def isEnabled (w : Widget) : Bool := w.enabled.getD true

def instance? (w : Widget) (id : String) : Option Blob := w.instances.bind (·.get? id)

def hasInstance (w : Widget) (id : String) : Bool := (w.instance? id).isSome

def instanceIds (w : Widget) : List String := (w.instances.map Map.keys).getD []

/-- An empty container of instances is dropped. -/
def normalize (w : Widget) : Widget :=
  { w with instances := w.instances.filter (fun m => !m.isEmpty) }

end Widget

namespace Document

instance : Inhabited Document := ⟨{}⟩

/-- The first collection of that id. -/
def collection? (d : Document) (id : String) : Option Collection :=
  d.collections.find? (·.id == id)

def hasCollection (d : Document) (id : String) : Bool := (d.collection? id).isSome

def normalize (d : Document) : Document :=
  { d with widgets := d.widgets.map fun _ w => w.normalize }

end Document

end ShellSettings
