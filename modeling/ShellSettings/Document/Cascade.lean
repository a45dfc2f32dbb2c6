import ShellSettings.Document.Codec
import ShellSettings.Document.Path

/-!
# Effective widget configuration

The configuration of a widget in one place is merged from three levels: the
widget's own settings, those of an instance, and those of a monitor. A later
level wins key by key and whole: nothing inside a value is merged, and a null
overrides like any other value. Whether the widget runs is decided by its own
level and by the monitor, never by the instance.
-/

namespace ShellSettings

namespace Blob

/-- The keys of both, those of `upper` winning. -/
def merge (base upper : Blob) : Blob := base.insertAll upper.entries

/-- What `merge` does, using `upper` up: its entries are moved into `base` one by one, the smallest
key first, until none is left. -/
def absorb (base upper : Blob) : Blob :=
  match upper with
  | ⟨[], _⟩ => base
  | ⟨(key, value) :: rest, sorted⟩ => absorb (base.insert key value) ⟨rest, sorted.of_cons⟩
termination_by upper.entries.length

/-- The levels merged in order, the last strongest; an absent level is skipped. -/
def mergeLevels (levels : List (Option Blob)) : Blob :=
  levels.reduceOption.foldl merge ∅

/-- The levels put into an empty blob one after the other, an absent one passed over. -/
def stepwise (put : Blob → Blob → Blob) (levels : List (Option Blob)) : Blob :=
  levels.foldl (fun base level => level.elim base (put base)) ∅

end Blob

structure Placement where
  widget : String
  instanceId : Option String := none
  monitor : Option String := none
deriving DecidableEq, Repr

structure Effective where
  placement : Placement
  config : Blob

namespace Document

/-- The widget's own level: its settings and whether it is enabled. A widget without an entry is
enabled and has no settings. -/
def ownLevel (d : Document) (widget : String) : Blob :=
  let w := (d.widgets.get? widget).getD {}
  (w.settings.erase Widget.instancesKey).insert Widget.enabledKey (.bool w.isEnabled)

/-- What the instance changes; it has no say in whether the widget is enabled. -/
def instanceLevel (d : Document) (widget id : String) : Option Blob :=
  ((d.widgets.get? widget).bind (·.instance? id)).map (·.erase Widget.enabledKey)

def monitorLevel (d : Document) (widget monitor : String) : Option Blob :=
  (d.monitors.get? monitor).bind (·.widgets.get? widget)

def effective (d : Document) (p : Placement) : Effective where
  placement := p
  config := Blob.mergeLevels [
    some (d.ownLevel p.widget),
    p.instanceId.bind (d.instanceLevel p.widget),
    p.monitor.bind (d.monitorLevel p.widget)]

def effectiveAll (d : Document) (widget : String) (monitor : Option String) : List Effective :=
  let ids := ((d.widgets.get? widget).map Widget.instanceIds).getD []
  (none :: ids.map some).map fun id => d.effective ⟨widget, id, monitor⟩

end Document

namespace Effective

def get? (e : Effective) (path : String) : Option Json :=
  match Path.dotted path with
  | [] => none
  | key :: keys => (e.config.get? key).bind (Json.at? keys)

def isEnabled (e : Effective) : Bool :=
  ((e.get? Widget.enabledKey).bind Json.bool?).getD true

def toJson (e : Effective) : Json :=
  let optional := fun (key : String) (s : Option String) =>
    (s.map fun s => (key, Json.str s)).toList
  .obj ([("widget_id", .str e.placement.widget)] ++
    optional "instance_id" e.placement.instanceId ++
    optional "monitor_id" e.placement.monitor ++
    [("config", .ofMap e.config)])

end Effective

end ShellSettings
