import ShellSettings.Json.Source

/-!
# Reading records

Members are read in the order in which they stand, and the first that does not
fit is the error; what is missing shows only after the last. A record either
keeps the members it does not know, passes over them, or refuses them.
-/

namespace ShellSettings.Read

variable {σ α μ : Type} [Source σ]

open Source (view)

def bool (s : σ) : Read Bool :=
  match view s with
  | .bool b => .ok b
  | v => .error (v.mismatch "a boolean")

def textAs (expected : String) (s : σ) : Read String :=
  match view s with
  | .text t => .ok t
  | v => .error (v.mismatch expected)

def text (s : σ) : Read String := textAs "a string" s

def integer (low high : Int) (expected : String) (s : σ) : Read Int :=
  match view s with
  | .number (.int i) =>
    if low ≤ i ∧ i ≤ high then .ok i else .error (.invalidValue (.number (.int i)) expected)
  | v => .error (v.mismatch expected)

def int32 (s : σ) : Read Int32 := (integer (-0x80000000) 0x7fffffff "i32" s).map Int32.ofInt

def word64 (s : σ) : Read Nat := (integer 0 (Number.wordLimit - 1) "u64" s).map Int.toNat

def optional (read : σ → Read α) (s : σ) : Read (Option α) :=
  match view s with
  | .null => .ok none
  | _ => (read s).map some

def json (s : σ) : Read Json := (Source.whole s).map Json.sorted

def list (read : σ → Read α) (s : σ) : Read (List α) :=
  match view s with
  | .sequence items fault => do
    let xs ← items.mapM read
    finish fault
    return xs
  | v => .error (v.mismatch "a sequence")

/-- A free-keyed map. Every value is read; of a repeated key the last stays. -/
def map (read : σ → Read α) (s : σ) : Read (Map α) :=
  match view s with
  | .map members stop => do
    let ms ← members.mapM fun m => return (m.1, ← read m.2)
    finish stop.fault?
    return Map.ofList ms
  | v => .error (v.mismatch "a map")

def blob (s : σ) : Read Blob := map json s

def variant (table : List (String × α)) (name : String) : Read α :=
  match table.lookup name with
  | some a => .ok a
  | none => .error (.unknownVariant name (table.map (·.1)))

/-- Content set aside may give nothing as an empty map. -/
def unit (s : σ) : Read Unit :=
  match view s, Source.manner σ with
  | .null, _ => .ok ()
  | .map [] .closed, .setAside => .ok ()
  | v, _ => .error (v.mismatch "unit")

/-- One of a table of names: the name, or a map from the name to null. In a text nothing but the
end of the map may follow the null. -/
def name (table : List (String × α)) (s : σ) : Read α :=
  match view s, Source.manner σ with
  | .text t, _ => variant table t
  | .map [] stop, .text => .error (.fault (stop.fault?.getD .malformed))
  | .map [(t, content)] stop, .text => do
    let a ← variant table t
    unit content
    match stop with
    | .noKey _ => .error (.fault .malformed)
    | stop => finish stop.fault?
    return a
  | .map ((t, content) :: _ :: _) _, .text => do
    let _ ← variant table t
    unit content
    .error (.fault .malformed)
  | .map [(t, content)] _, _ => do
    let a ← variant table t
    unit content
    return a
  | .map _ _, _ => .error (.invalidValue .map "map with a single key")
  | .broken fault, _ => .error (.fault fault.whereNameStands)
  | _, .text => .error (.fault .malformed)
  | v, _ => .error (v.mismatch "string or map")

end ShellSettings.Read

namespace ShellSettings

/-- How the members of a record are read, each to a value of `μ`. -/
structure Record (σ μ : Type) where
  -- What errors call the record.
  title : String
  -- The names of the fields, in order.
  fields : List String
  -- Other names of fields.
  aliases : List (String × String) := []
  read : String → σ → Read μ
  -- A member that is no field.
  other : String → σ → Read (List μ)

namespace Record

variable {σ μ : Type} [Source σ]

open Source (view)

def field? (r : Record σ μ) (key : String) : Option String :=
  if key ∈ r.fields then some key else r.aliases.lookup key

def readMembers (r : Record σ μ) : List String → List (String × σ) → Read (List μ)
  | _, [] => .ok []
  | seen, (key, s) :: rest =>
    match r.field? key with
    | some field =>
      if field ∈ seen then .error (.duplicateField field)
      else do
        let m ← r.read field s
        return m :: (← r.readMembers (field :: seen) rest)
    | none => do
      let ms ← r.other key s
      return ms ++ (← r.readMembers seen rest)

/-- The fields of a record given in order. Those named in `lax` may be missing at the end. -/
def readItems (r : Record σ μ) (lax : List String) (fault : Option Fault) (total : Nat) :
    Nat → List String → List σ → Read (List μ)
  | _, [], [] => do
    Read.finish fault
    return []
  | taken, [], _ :: _ =>
    match Source.manner σ with
    | .text => .error (.fault .malformed)
    | .value => .error (.invalidLength total "fewer elements in array")
    | .setAside =>
      let unit := if taken = 1 then " element in sequence" else " elements in sequence"
      .error (.invalidLength total (toString taken ++ unit))
  | taken, field :: fields, [] =>
    match fault with
    | some fault => .error (.fault fault)
    | none =>
      if field ∈ lax then r.readItems lax fault total taken fields []
      else
        let size := r.fields.length
        let unit := if size = 1 then " element" else " elements"
        .error (.invalidLength taken (r.title ++ " with " ++ toString size ++ unit))
  | taken, field :: fields, s :: rest => do
    let m ← r.read field s
    return m :: (← r.readItems lax fault total (taken + 1) fields rest)

def ofMap (r : Record σ μ) (s : σ) : Read (List μ) :=
  match view s with
  | .map members stop => do
    let ms ← r.readMembers [] members
    Read.finish stop.fault?
    return ms
  | v => .error (v.mismatch r.title)

def ofMapOrSequence (r : Record σ μ) (lax : List String) (s : σ) : Read (List μ) :=
  match view s with
  | .sequence items fault => r.readItems lax fault items.length 0 r.fields items
  | _ => r.ofMap s

def passOver (_key : String) (s : σ) : Read (List μ) := do
  Source.skip s
  return []

end Record

def Read.require {α : Type} (field : String) : Option α → Read α
  | some a => .ok a
  | none => .error (.missingField field)

end ShellSettings
