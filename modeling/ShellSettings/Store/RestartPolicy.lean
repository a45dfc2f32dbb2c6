import ShellSettings.Document.Path

/-!
# Restart policy

Some settings take effect after a restart only. A policy lists their paths; a
change matters if the value at one of them differs.
-/

namespace ShellSettings

structure RestartPolicy where
  paths : List Path
deriving DecidableEq, Repr

namespace RestartPolicy

def builtIn : RestartPolicy :=
  ⟨[⟨["virtualDesktopStrategy"]⟩, ⟨["hardwareAcceleration"]⟩, ⟨["updater", "channel"]⟩]⟩

def add (r : RestartPolicy) (p : Path) : RestartPolicy :=
  if p ∈ r.paths then r else ⟨r.paths ++ [p]⟩

def withPaths (texts : List String) : Except PathError RestartPolicy :=
  texts.foldlM (fun r text => return r.add (← Path.parse text)) builtIn

/-- Whether a path leads to the same value in both, or to nothing in both. -/
def sameAt (p : Path) (before after : Json) : Bool :=
  match p.resolve before, p.resolve after with
  | none, none => true
  | some a, some b => a.same b
  | _, _ => false

def changedPath (r : RestartPolicy) (before after : Json) : Option Path :=
  r.paths.find? fun p => !sameAt p before after

end RestartPolicy

end ShellSettings
