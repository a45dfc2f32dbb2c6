import ShellSettings.Disk.FileTree
import ShellSettings.Json.Record
import ShellSettings.Text.Blank
import ShellSettings.Tuning.Toml

/-!
# Tuning

How the client talks to its host, from a file of its own. Everything has a
default, so a missing file is no error; what the file says has to be within
bounds.
-/

namespace ShellSettings

structure Tuning where
  -- Where the settings document is; the host's default if not given.
  settingsPath : Option String := none
  -- Seconds after which an unanswered echo guard is stale; zero for never.
  echoSeconds : Nat := 30
  -- Seconds that a blocking save waits for its result.
  persistSeconds : Nat := 10
  -- Paths whose change needs a restart, besides the built-in ones.
  restartPaths : List String := []
deriving DecidableEq, Repr

inductive TuningError where
  | io (e : IoError)
  | parse
  | relativePath (path : String)
  | echoOutOfRange
  | persistOutOfRange
  | emptyPath (path : String)
deriving DecidableEq, Repr

namespace Tuning

def maxSeconds : Nat := 3600

def defaultName : String := ".config/shellconf/core.toml"

end Tuning

def TuningError.message : TuningError → String
  | .io e => "IO error: " ++ e.message
  | .parse => "<toml>"
  | .relativePath p => "Validation error: settings_path must be absolute, got '" ++ p ++ "'"
  | .echoOutOfRange =>
    "Validation error: echo_timeout_seconds must be in [0, " ++ toString Tuning.maxSeconds ++ "]"
  | .persistOutOfRange =>
    "Validation error: persist_timeout_seconds must be in (0, " ++
      toString Tuning.maxSeconds ++ "]"
  | .emptyPath p =>
    "Validation error: restart_required_paths contains an empty path: " ++ Text.quoted p

namespace Tuning

def fault? (t : Tuning) : Option TuningError :=
  match t.settingsPath.filter (fun p => !(FilePath.mk p).isAbsolute) with
  | some p => some (.relativePath p)
  | none =>
    if maxSeconds < t.echoSeconds then some .echoOutOfRange
    else if t.persistSeconds = 0 ∨ maxSeconds < t.persistSeconds then some .persistOutOfRange
    else (t.restartPaths.find? Text.isBlankText).map .emptyPath

def validate (t : Tuning) : Except TuningError Tuning :=
  match t.fault? with
  | some e => .error e
  | none => .ok t

def echoTimeout (t : Tuning) : Option Nat :=
  if t.echoSeconds = 0 then none else some (1000 * t.echoSeconds)

def persistTimeout (t : Tuning) : Nat := 1000 * t.persistSeconds

inductive Member where
  | settingsPath (p : Option String)
  | echoSeconds (n : Nat)
  | persistSeconds (n : Nat)
  | restartPaths (ps : List String)

def fieldNames : List String :=
  ["settings_path", "echo_timeout_seconds", "persist_timeout_seconds", "restart_required_paths"]

variable {σ : Type} [Source σ]

def record : Record σ Member where
  title := "struct CoreConfig"
  fields := fieldNames
  read field s :=
    match field with
    | "settings_path" => .settingsPath <$> Read.optional (Read.textAs "path string") s
    | "echo_timeout_seconds" => .echoSeconds <$> Read.word64 s
    | "persist_timeout_seconds" => .persistSeconds <$> Read.word64 s
    | _ => .restartPaths <$> Read.list Read.text s
  other key _ := .error (.unknownField key fieldNames)

def ofMembers (ms : List Member) : Tuning :=
  let start : Tuning := {}
  { settingsPath :=
      (ms.findSome? fun | .settingsPath p => some p | _ => none).getD start.settingsPath
    echoSeconds := (ms.findSome? fun | .echoSeconds n => some n | _ => none).getD start.echoSeconds
    persistSeconds :=
      (ms.findSome? fun | .persistSeconds n => some n | _ => none).getD start.persistSeconds
    restartPaths :=
      (ms.findSome? fun | .restartPaths ps => some ps | _ => none).getD start.restartPaths }

def read (s : σ) : Read Tuning := return ofMembers (← record.ofMapOrSequence fieldNames s)

def Member.ofToml? : String × Toml.Value → Option Member
  | ("settings_path", .text p) => some (.settingsPath (some p))
  | ("echo_timeout_seconds", .integer i) => if i < 0 then none else some (.echoSeconds i.toNat)
  | ("persist_timeout_seconds", .integer i) =>
    if i < 0 then none else some (.persistSeconds i.toNat)
  | ("restart_required_paths", .array items) =>
    .restartPaths <$> items.mapM fun | .text s => some s | _ => none
  | _ => none

def parse (text : String) : Except TuningError Tuning :=
  match Toml.parse text with
  | none => .error .parse
  | some pairs =>
    if (pairs.map (·.1)).Nodup then
      match pairs.mapM Member.ofToml? with
      | none => .error .parse
      | some ms => (ofMembers ms).validate
    else .error .parse

def load (t : FileTree) (p : FilePath) : Except TuningError Tuning :=
  match t.readText p with
  | .error e => .error (.io e)
  | .ok text => parse text

def loadOrDefault (t : FileTree) (p : FilePath) : Except TuningError Tuning :=
  if t.has p then load t p else .ok {}

def defaultPath (home : Option String) : Except TuningError FilePath :=
  match home with
  | none => .error (.io .homeUnset)
  | some h => .ok (FilePath.under ⟨h⟩ defaultName)

end Tuning

end ShellSettings
