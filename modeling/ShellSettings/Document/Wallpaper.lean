import ShellSettings.Document.Basic

/-!
# Wallpaper slots

A collection can be named at three levels: by a workspace of a monitor, by the
monitor, and globally. The most specific level that names one wins; nothing is
merged. All slots of a document are listed and changed together here, so that
what is reported about them and what is done to them follow one order.
-/

namespace ShellSettings

inductive Slot where
  | global
  | monitor (monitor : String)
  | workspace (monitor workspace : String)
deriving DecidableEq, Repr

inductive SlotLevel where
  | workspace
  | monitor
  | global
deriving DecidableEq, Repr

def SlotLevel.name : SlotLevel → String
  | .workspace => "workspace"
  | .monitor => "monitor"
  | .global => "global"

namespace Document

def slot (d : Document) : Slot → Option String
  | .global => d.wallpaper
  | .monitor m => (d.monitors.get? m).bind (·.wallpaper)
  | .workspace m w => ((d.monitors.get? m).bind (·.workspaces.get? w)).bind (·.wallpaper)

def monitorSlots (id : String) (m : Monitor) : List (Slot × Option String) :=
  (.monitor id, m.wallpaper) :: m.workspaces.entries.map fun e => (.workspace id e.1, e.2.wallpaper)

def slots (d : Document) : List (Slot × Option String) :=
  (.global, d.wallpaper) :: d.monitors.entries.flatMap fun e => monitorSlots e.1 e.2

def mapSlots (f : Option String → Option String) (d : Document) : Document :=
  { d with
    wallpaper := f d.wallpaper
    monitors := d.monitors.map fun _ m =>
      { m with
        wallpaper := f m.wallpaper
        workspaces := m.workspaces.map fun _ w => { w with wallpaper := f w.wallpaper } } }

/-- Makes one slot name a collection, or none. Missing entries on the way are created. -/
def setSlot (d : Document) (slot : Slot) (id : Option String) : Document :=
  match slot with
  | .global => { d with wallpaper := id }
  | .monitor m =>
    { d with monitors := d.monitors.change m {} fun m => { m with wallpaper := id } }
  | .workspace m w =>
    { d with
      monitors := d.monitors.change m {} fun m =>
        { m with workspaces := m.workspaces.change w {} fun w => { w with wallpaper := id } } }

/-- The collection shown on a monitor and workspace, with the level that names it. -/
def activeWallpaper (d : Document) (monitor : String) (workspace : Option String) :
    Option (String × SlotLevel) :=
  ((workspace.bind fun w => d.slot (.workspace monitor w)).map (·, .workspace)) <|>
  ((d.slot (.monitor monitor)).map (·, .monitor)) <|>
  ((d.slot .global).map (·, .global))

end Document

end ShellSettings
