import ShellSettings.Cli.Run

/-!
# The program

Takes a picture of the files that a run looks at, runs on the picture, and makes
the files what the run made of them. What a run does is decided in
`ShellSettings.Cli.run` alone.
-/

namespace ShellSettings.Cli

def placeText (place : Place) : String := "/" ++ String.intercalate "/" place

def look (place : Place) : IO (Option Entry) := do
  try
    return some (.file (.ofBytes (← IO.FS.readBinFile (placeText place)).toList))
  catch
    | .noFileOrDirectory .. => return none
    | .inappropriateType .. => return some .directory
    | e => throw e

/-- Adds to the picture what stands on the way to the end of a path. -/
def picturePath (t : FileTree) (p : FilePath) : IO FileTree := do
  if (FileTree.textFault? p).isSome then return t
  let start := if p.isAbsolute then [] else t.base
  let (t, _) ← p.names.foldlM (fun (t, place?) name => do
    match place?.bind fun place => (t.step place name).toOption with
    | none => return (t, none)
    | some place =>
      match ← look place with
      | none => return (t, some place)
      | some e => return (t.put place e, some place)) (t, some start)
  return t

/-- Makes the files what the tree shows. A file takes its place complete or not at all. -/
def putInPlace (before after : FileTree) : IO Unit := do
  for (place, e) in after.entries do
    if e = .directory ∧ before.entry? place ≠ some e then
      IO.FS.createDirAll (placeText place)
  for (place, e) in after.entries do
    match e with
    | .directory => pure ()
    | .file content =>
      if before.entry? place ≠ some e then
        let bytes := match content with
          | .text s => s.toUTF8
          | .bytes b => ⟨b.toArray⟩
        IO.FS.writeBinFile (placeText place ++ ".tmp") bytes
        IO.FS.rename (placeText place ++ ".tmp") (placeText place)
  for (place, _) in before.entries do
    if after.entry? place = none then IO.FS.removeFile (placeText place)

/-- Eighty bits of chance for each of the ids that one search may draw. -/
def drawChance : IO (Nat → Nat) := do
  let bytes := (← IO.getRandomBytes (10 * IdSource.maxAttempts).toUSize).toList
  return fun n => ((bytes.drop (10 * n)).take 10).foldl (fun acc b => 256 * acc + b.toNat) 0

def program (args : List String) : IO UInt32 := do
  let home ← IO.getEnv "HOME"
  let now ← IO.monoMsNow
  let env : Environment := { home, ids := Ulid.source now (← drawChance), now }
  let cwd : FilePath := ⟨(← IO.currentDir).toString⟩
  let paths := fun (t : FileTree) => match Invocation.ofArguments args with
    | .ok inv => inv.files home t
    | .error _ => []
  let start := FileTree.startingAt cwd.names
  let configured ← (paths start).foldlM picturePath start
  let before ← (paths configured).foldlM picturePath configured
  let (output, after) := run env args before
  putInPlace before after
  IO.print output.stdout
  IO.eprint output.stderr
  return UInt32.ofNat output.code

end ShellSettings.Cli

def main (args : List String) : IO UInt32 := ShellSettings.Cli.program args
