import ShellSettings.Json.Basic

/-!
# Paths into a document

A path is a list of object keys; arrays have no addresses. Written, the keys are
joined by dots, so a key with a dot in it can only be given raw. A path can be
looked up in a value and replaced in it.
-/

namespace ShellSettings

structure Path where
  keys : List String
deriving DecidableEq, Repr

structure PathError where
  path : String
deriving DecidableEq, Repr

def PathError.message (e : PathError) : String :=
  "invalid document path '" ++ e.path ++ "': empty segment"

namespace Path

def root : Path := ⟨[]⟩

def isRoot (p : Path) : Bool := p.keys.isEmpty

def splitDots : List Char → List (List Char)
  | [] => [[]]
  | c :: cs =>
    if c = '.' then [] :: splitDots cs
    else match splitDots cs with
      | [] => [[c]]
      | piece :: pieces => (c :: piece) :: pieces

def dotted (text : String) : List String := (splitDots text.toList).map String.ofList

/-- Reads a written path. The empty text is the root; no other may have an empty key. -/
def parse (text : String) : Except PathError Path :=
  if text.isEmpty then .ok root
  else if (dotted text).any (·.isEmpty) then .error ⟨text⟩
  else .ok ⟨dotted text⟩

def display (p : Path) : String :=
  if p.isRoot then "<root>" else String.intercalate "." p.keys

end Path

namespace Json

def at? : List String → Json → Option Json
  | [], v => some v
  | key :: keys, v => (v.get? key).bind (at? keys)

def setMember (key : String) (value : Json) : List (String × Json) → List (String × Json)
  | [] => []
  | (k, v) :: rest => if k = key then (k, value) :: rest else (k, v) :: setMember key value rest

def replace? (value : Json) : List String → Json → Option Json
  | [], _ => some value
  | key :: keys, .obj members => do
    let old ← members.lookup key
    let new ← replace? value keys old
    return .obj (setMember key new members)
  | _ :: _, _ => none

end Json

namespace Path

def resolve (p : Path) (v : Json) : Option Json := v.at? p.keys

/-- The value with `new` where the path leads; nothing if it leads nowhere. -/
def replace? (p : Path) (new : Json) (v : Json) : Option Json := Json.replace? new p.keys v

end Path

end ShellSettings
