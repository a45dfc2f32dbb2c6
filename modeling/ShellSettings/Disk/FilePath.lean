/-!
# File paths

A path is a text; slashes divide it into pieces. Empty pieces and `.` say
nothing, `..` goes up, and any other piece is a name. What a path ends in
matters: only a directory's path ends in a slash, in `.` or in `..`.
-/

namespace ShellSettings

structure FilePath where
  text : String
deriving DecidableEq, Repr, Inhabited

namespace FilePath

def splitSlashes : List Char → List (List Char)
  | [] => [[]]
  | c :: cs =>
    if c = '/' then [] :: splitSlashes cs
    else match splitSlashes cs with
      | [] => [[c]]
      | piece :: pieces => (c :: piece) :: pieces

def isAbsolute (p : FilePath) : Bool := p.text.toList.head? == some '/'

def endsInSlash (p : FilePath) : Bool := p.text.toList.getLast? == some '/'

/-- The pieces after the slash that an absolute path begins with. -/
def pieces (p : FilePath) : List String :=
  let cs := p.text.toList
  (splitSlashes (if p.isAbsolute then cs.drop 1 else cs)).map String.ofList

def ofPieces (absolute : Bool) (pieces : List String) : FilePath :=
  ⟨(if absolute then "/" else "") ++ String.intercalate "/" pieces⟩

def isIdle (piece : String) : Bool := piece == "" || piece == "."

/-- The pieces from the last name on, last first. -/
def backward (p : FilePath) : List String := p.pieces.reverse.dropWhile isIdle

/-- The names on the way, `..` included. -/
def names (p : FilePath) : List String := p.pieces.filter fun piece => !isIdle piece

/-- The name a path ends in, slashes after it aside. A path that ends in `.` or `..`, or has only
slashes, ends in none. -/
def lastName? (p : FilePath) : Option String :=
  match p.pieces.reverse.dropWhile (· == "") with
  | [] => none
  | piece :: _ => if piece == "." || piece == ".." then none else some piece

/-- The directory that holds what the path names; nothing for a path without names. -/
def parent? (p : FilePath) : Option FilePath :=
  match p.backward with
  | [] => none
  | _ :: above => some (ofPieces p.isAbsolute (above.dropWhile isIdle).reverse)

/-- A file name up to its last dot; a dot at its beginning does not count. -/
def stem (name : String) : String :=
  let cs := name.toList
  match (cs.reverse.dropWhile (· != '.')).drop 1 with
  | [] => name
  | front => String.ofList front.reverse

/-- Whether a name is two dots and an extension: without the extension it goes up. -/
def isDotted (name : String) : Bool := stem name == "." && name != ".."

/-- The path with another extension of its last name, and nothing after it. A path without a file
name stays. The old extension goes first, so a path that ends in a dotted name goes up. -/
def withExtension (p : FilePath) (extension : String) : FilePath :=
  match p.backward with
  | [] => p
  | ".." :: _ => p
  | name :: above =>
    let name :=
      if isDotted name && p.pieces.getLast? == some name then ".."
      else stem name ++ "." ++ extension
    ofPieces p.isAbsolute (name :: above).reverse

def under (directory : FilePath) (rest : String) : FilePath :=
  if directory.text.isEmpty || directory.endsInSlash then ⟨directory.text ++ rest⟩
  else ⟨directory.text ++ "/" ++ rest⟩

end FilePath

end ShellSettings
