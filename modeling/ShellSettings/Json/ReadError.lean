import ShellSettings.Json.Draft
import ShellSettings.Json.Printer
import ShellSettings.Text.Quoted

/-!
# Why a record cannot be read

A value of the wrong shape says what was found and what was expected; all
wording is in `ReadError.message`.
-/

namespace ShellSettings

inductive Found where
  | null
  | bool (b : Bool)
  | number (n : Number)
  | text (s : String)
  | sequence
  | map
deriving DecidableEq, Repr

namespace Found

def describe : Found → String
  | .null => "null"
  | .bool b => "boolean `" ++ (if b then "true" else "false") ++ "`"
  | .number (.int i) => "integer `" ++ String.ofList (Number.write .json (.int i)) ++ "`"
  | .number (.double d) => "floating point `" ++ String.ofList (Layout.json.write d) ++ "`"
  | .text s => "string " ++ Text.quoted s
  | .sequence => "sequence"
  | .map => "map"

end Found

inductive ReadError where
  -- The text is not JSON.
  | fault (f : Fault)
  | invalidType (found : Found) (expected : String)
  | invalidValue (found : Found) (expected : String)
  | invalidLength (length : Nat) (expected : String)
  | missingField (field : String)
  | duplicateField (field : String)
  | unknownField (field : String) (expected : List String)
  | unknownVariant (variant : String) (expected : List String)
deriving DecidableEq, Repr

namespace ReadError

def choices : List String → String
  | [] => "nothing"
  | [a] => "`" ++ a ++ "`"
  | [a, b] => "`" ++ a ++ "` or `" ++ b ++ "`"
  | names => "one of " ++ String.intercalate ", " (names.map fun n => "`" ++ n ++ "`")

def message : ReadError → String
  | .fault _ => "<json>"
  | .invalidType found expected =>
    "invalid type: " ++ found.describe ++ ", expected " ++ expected
  | .invalidValue found expected =>
    "invalid value: " ++ found.describe ++ ", expected " ++ expected
  | .invalidLength length expected =>
    "invalid length " ++ toString length ++ ", expected " ++ expected
  | .missingField field => "missing field `" ++ field ++ "`"
  | .duplicateField field => "duplicate field `" ++ field ++ "`"
  | .unknownField field expected =>
    "unknown field `" ++ field ++ "`, expected " ++ choices expected
  | .unknownVariant variant expected =>
    "unknown variant `" ++ variant ++ "`, expected " ++ choices expected

end ReadError

abbrev Read := Except ReadError

/-- The end of a container, unless reading of its text stopped there. -/
def Read.finish : Option Fault → Read Unit
  | none => .ok ()
  | some fault => .error (.fault fault)

end ShellSettings
