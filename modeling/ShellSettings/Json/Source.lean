import ShellSettings.Json.ReadError

/-!
# What records are read from

A record is read the same way from a JSON value, from the draft of a text, and
from the content of a tagged message that was set aside until its tag was known.
`Source` is what these have in common: one step of looking into them, taking the
whole of them as a value, and passing over them. The three differ in a few
error cases only, which go by the `Manner`.
-/

namespace ShellSettings

/-- One step into a source. A container ends where reading of its text stopped. -/
inductive View (σ : Type) where
  | null
  | bool (b : Bool)
  | number (n : Number)
  | text (s : String)
  | sequence (items : List σ) (fault : Option Fault)
  | map (members : List (String × σ)) (stop : MapEnd)
  | broken (fault : Fault)

/-- Where a record is read from, as far as error cases show it. -/
inductive Manner where
  | value
  | text
  | setAside
deriving DecidableEq, Repr

class Source (σ : Type) where
  manner : Manner
  view : σ → View σ
  -- The whole as a value, members in the order written, repetitions included.
  whole : σ → Read Json
  -- Passes over what nobody looks at.
  skip : σ → Read Unit

namespace View

variable {σ τ : Type}

def mapContents (f : σ → τ) : View σ → View τ
  | .null => .null
  | .bool b => .bool b
  | .number n => .number n
  | .text s => .text s
  | .sequence items fault => .sequence (items.map f) fault
  | .map members stop => .map (members.map fun m => (m.1, f m.2)) stop
  | .broken fault => .broken fault

def mismatch (expected : String) : View σ → ReadError
  | .null => .invalidType .null expected
  | .bool b => .invalidType (.bool b) expected
  | .number n => .invalidType (.number n) expected
  | .text s => .invalidType (.text s) expected
  | .sequence _ _ => .invalidType .sequence expected
  | .map _ _ => .invalidType .map expected
  | .broken fault => .fault fault

end View

def Json.view : Json → View Json
  | .null => .null
  | .bool b => .bool b
  | .num n => .number n
  | .str s => .text s
  | .arr items => .sequence items none
  | .obj members => .map members .closed

instance : Source Json where
  manner := .value
  view := Json.view
  whole := .ok
  skip _ := .ok ()

/-- Content of a tagged message, read when the tag is known. -/
structure SetAside where
  content : Json

instance : Source SetAside where
  manner := .setAside
  view s := s.content.view.mapContents SetAside.mk
  whole s := .ok s.content
  skip _ := .ok ()

/-- A place in the draft of a text, with the number of containers that may still be opened. -/
structure Cursor where
  room : Nat
  draft : Draft

namespace Cursor

def depthLimit : Nat := 127

/-- The members up to the first whose key is no text. -/
def textMembers (room : Nat) :
    List (Option String × Draft) → MapEnd → List (String × Cursor) × MapEnd
  | [], stop => ([], stop)
  | (none, _) :: _, _ => ([], .noKey .malformed)
  | (some key, d) :: rest, stop =>
    let (members, stop) := textMembers room rest stop
    ((key, ⟨room, d⟩) :: members, stop)

def view (c : Cursor) : View Cursor :=
  match c.room, c.draft with
  | _, .null => .null
  | _, .bool b => .bool b
  | _, .num (some n) => .number n
  | _, .num none => .broken .malformed
  | _, .str (some s) => .text s
  | _, .str none => .broken .malformed
  | 0, .arr _ _ => .sequence [] (some .malformed)
  | room + 1, .arr items fault => .sequence (items.map (Cursor.mk room)) fault
  | 0, .obj _ _ => .map [] (.fault .malformed)
  | room + 1, .obj members stop =>
    let (members, stop) := textMembers room members stop
    .map members stop
  | _, .broken fault => .broken fault

end Cursor

namespace Draft

mutual
/-- The value a draft holds, unless it has a fault or is nested too deeply. -/
def whole : Draft → Nat → Read Json
  | .null, _ => .ok .null
  | .bool b, _ => .ok (.bool b)
  | .num (some n), _ => .ok (.num n)
  | .str (some s), _ => .ok (.str s)
  | .arr items fault, room + 1 => do
    let xs ← wholeItems items room
    Read.finish fault
    return .arr xs
  | .obj members stop, room + 1 => do
    let ms ← wholeMembers members room
    Read.finish stop.fault?
    return .obj ms
  | .broken fault, _ => .error (.fault fault)
  | _, _ => .error (.fault .malformed)
def wholeItems : List Draft → Nat → Read (List Json)
  | [], _ => .ok []
  | d :: ds, room => do
    let x ← d.whole room
    return x :: (← wholeItems ds room)
def wholeMembers : List (Option String × Draft) → Nat → Read (List (String × Json))
  | [], _ => .ok []
  | (none, _) :: _, _ => .error (.fault .malformed)
  | (some key, d) :: ms, room => do
    let x ← d.whole room
    return (key, x) :: (← wholeMembers ms room)
end

end Draft

instance : Source Cursor where
  manner := .text
  view := Cursor.view
  whole c := c.draft.whole c.room
  skip c := Read.finish c.draft.fault?

/-- Reads a text from beginning to end: what `read` makes of its value, if nothing but blanks
follows. -/
def readText {α : Type} (read : Cursor → Read α) (text : String) : Read α := do
  let (draft, trailing) := Draft.ofText text
  let a ← read ⟨Cursor.depthLimit, draft⟩
  Read.finish trailing
  return a

end ShellSettings
