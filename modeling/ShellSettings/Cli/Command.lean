import ShellSettings.Cli.Arguments
import ShellSettings.Disk.FilePath
import ShellSettings.Store.Command

/-!
# Commands of the command line

What the program can be asked to do. Some commands only look; those that change
the document carry the store command that they stand for.
-/

namespace ShellSettings.Cli

inductive Command where
  -- Prints what stands at a path.
  | print (path : String)
  | effective (p : Placement)
  -- The widget and each of its instances.
  | effectiveAll (widget : String) (monitor : Option String)
  | wallpaper (monitor : String) (workspace : Option String)
  | change (c : StoreCommand)
  -- A change whose value is still to be read.
  | patch (path value : String)
  -- Drops the references that a catalog does not list.
  | prune (catalog : FilePath)
  -- Reports dangling references, and may save the document without them.
  | check (catalogs : List FilePath) (fix : Bool)

structure Invocation where
  -- The settings document, where one is named.
  file : Option FilePath
  -- The tuning file, where one is named.
  config : Option FilePath
  command : Command

namespace Invocation

def monitorOption : OptionForm := { name := "monitor", letter := some 'm', value := some .text }

def workspaceOption : OptionForm := { name := "workspace", letter := some 'w', value := some .text }

def grammar : Grammar where
  shared := [
    { name := "file", letter := some 'f', value := some .path },
    { name := "config", letter := some 'c', value := some .path },
    { name := "verbose", letter := some 'v' }]
  commands := [
    { words := ["show"], operands := [.text], required := 0 },
    { words := ["resolve"]
      operands := [.text]
      options := [
        { name := "instance", letter := some 'i', value := some .text },
        monitorOption,
        { name := "all" }] },
    { words := ["wallpaper", "resolve"], operands := [.text], options := [workspaceOption] },
    { words := ["wallpaper", "set"]
      operands := [.text]
      required := 0
      options := [monitorOption, workspaceOption, { name := "clear" }] },
    { words := ["patch"], operands := [.text, .text] },
    { words := ["instance", "create"], operands := [.text] },
    { words := ["instance", "delete"], operands := [.text, .text] },
    { words := ["collection", "create"], operands := [.text], openEnded := true },
    { words := ["collection", "delete"], operands := [.text] },
    { words := ["prune"], operands := [.path] },
    { words := ["check"]
      options := [
        { name := "catalog", value := some .path, repeatable := true },
        { name := "fix" }] }]

def slot? (monitor workspace : Option String) : Option Slot :=
  match monitor, workspace with
  | none, none => some .global
  | some m, none => some (.monitor m)
  | some m, some w => some (.workspace m w)
  | none, some _ => none

def command? (g : Given) : Option Command :=
  match g.words, g.operands with
  | ["show"], operands => some (.print (operands.head?.getD ""))
  | ["resolve"], [widget] =>
    match g.has "all", g.value? "instance" with
    | true, none => some (.effectiveAll widget (g.value? "monitor"))
    | true, some _ => none
    | false, instanceId => some (.effective ⟨widget, instanceId, g.value? "monitor"⟩)
  | ["wallpaper", "resolve"], [monitor] => some (.wallpaper monitor (g.value? "workspace"))
  | ["wallpaper", "set"], operands => do
    let slot ← slot? (g.value? "monitor") (g.value? "workspace")
    match g.has "clear", operands with
    | true, [] => some (.change (.setWallpaper slot none))
    | false, [id] => some (.change (.setWallpaper slot (some id)))
    | _, _ => none
  | ["patch"], [path, value] => some (.patch path value)
  | ["instance", "create"], [widget] => some (.change (.createInstance widget))
  | ["instance", "delete"], [widget, id] => some (.change (.deleteInstance widget id))
  | ["collection", "create"], name :: resources =>
    some (.change (.createCollection name resources))
  | ["collection", "delete"], [id] => some (.change (.deleteCollection id))
  | ["prune"], [catalog] => some (.prune ⟨catalog⟩)
  | ["check"], [] => some (.check ((g.values "catalog").map FilePath.mk) (g.has "fix"))
  | _, _ => none

def ofArguments (args : List String) : Except Stop Invocation := do
  let g ← grammar.parse args
  match command? g with
  | none => .error .usage
  | some command =>
    .ok { file := (g.value? "file").map FilePath.mk
          config := (g.value? "config").map FilePath.mk
          command }

end Invocation

end ShellSettings.Cli
