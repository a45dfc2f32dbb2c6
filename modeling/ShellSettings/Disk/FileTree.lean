import ShellSettings.Disk.FilePath

/-!
# A file tree

The part of a file system that settings live in, as a value: which directories
and files there are, and the directory that relative paths start from. Every
operation finds its place name by name, so it fails where a directory on the way
is missing or is a file, or a name is too long, and a failed operation leaves the
tree as it was, except that directories made on the way to it stay.
-/

namespace ShellSettings

inductive IoError where
  | noEntry
  | notDirectory
  | isDirectory
  | exists
  | busy
  | nameTooLong
  | nulInName
  | notText
  | homeUnset
  | other (text : String)
deriving DecidableEq, Repr

def IoError.message : IoError → String
  | .noEntry => "No such file or directory (os error 2)"
  | .notDirectory => "Not a directory (os error 20)"
  | .isDirectory => "Is a directory (os error 21)"
  | .exists => "File exists (os error 17)"
  | .busy => "Device or resource busy (os error 16)"
  | .nameTooLong => "File name too long (os error 36)"
  | .nulInName => "file name contained an unexpected NUL byte"
  | .notText => "stream did not contain valid UTF-8"
  | .homeUnset => "HOME environment variable not set"
  | .other text => text

/-- What a file holds: a text, or bytes that are no UTF-8. -/
inductive Content where
  | text (s : String)
  | bytes (b : List UInt8)
deriving DecidableEq, Repr

def Content.ofBytes (b : List UInt8) : Content :=
  match String.fromUTF8? ⟨b.toArray⟩ with
  | some s => .text s
  | none => .bytes b

inductive Entry where
  | directory
  | file (content : Content)
deriving DecidableEq, Repr

abbrev Place := List String

structure FileTree where
  -- Where relative paths start.
  base : Place
  entries : List (Place × Entry)
deriving Repr

/-- Something done to a file tree that may fail. -/
abbrev Disk (α : Type) := FileTree → Except IoError α × FileTree

namespace FileTree

def entry? (t : FileTree) (place : Place) : Option Entry :=
  if place.isEmpty then some .directory else t.entries.lookup place

def remove (t : FileTree) (place : Place) : FileTree :=
  { t with entries := t.entries.filter fun e => e.1 != place }

def put (t : FileTree) (place : Place) (e : Entry) : FileTree :=
  { t with entries := (place, e) :: (t.remove place).entries }

def putDirectories (t : FileTree) (place : Place) : FileTree :=
  (List.range place.length).foldl (fun t n => t.put (place.take (n + 1)) .directory) t

def startingAt (base : Place) : FileTree := putDirectories ⟨base, []⟩ base

def nameLimit : Nat := 255

def pathLimit : Nat := 4095

/-- What is wrong with the text of a path, wherever it leads. -/
def textFault? (p : FilePath) : Option IoError :=
  if p.text.toList.contains '\x00' then some .nulInName
  else if p.text.isEmpty then some .noEntry
  else if p.text.utf8ByteSize > pathLimit then some .nameTooLong
  else none

def step (t : FileTree) (place : Place) (name : String) : Except IoError Place :=
  match t.entry? place with
  | none => .error .noEntry
  | some (.file _) => .error .notDirectory
  | some .directory =>
    if name = ".." then .ok place.dropLast
    else if name.utf8ByteSize > nameLimit then .error .nameTooLong
    else .ok (place ++ [name])

def directoryAt (t : FileTree) (place : Place) : Except IoError Place :=
  match t.entry? place with
  | none => .error .noEntry
  | some (.file _) => .error .notDirectory
  | some .directory => .ok place

/-- The directory that a path leads to, and the name in it that the path ends in. A path that ends
in no name leads to the directory alone. -/
def approach (t : FileTree) (p : FilePath) : Except IoError (Place × Option String) := do
  match textFault? p with
  | some e => .error e
  | none =>
    let last := p.lastName?
    let way := if last.isSome then p.names.dropLast else p.names
    let place ← way.foldlM t.step (if p.isAbsolute then [] else t.base)
    return (← t.directoryAt place, last)

def locate (t : FileTree) (p : FilePath) : Except IoError Place := do
  match ← t.approach p with
  | (place, none) => return place
  | (place, some name) => t.step place name

def find (t : FileTree) (p : FilePath) : Except IoError Entry := do
  match t.entry? (← t.locate p) with
  | none => .error .noEntry
  | some (.file c) => if p.endsInSlash then .error .notDirectory else .ok (.file c)
  | some .directory => .ok .directory

def has (t : FileTree) (p : FilePath) : Bool := (t.find p).toOption.isSome

def isDirectory (t : FileTree) (p : FilePath) : Bool :=
  match t.find p with
  | .ok .directory => true
  | _ => false

def readText (t : FileTree) (p : FilePath) : Except IoError String := do
  match ← t.find p with
  | .directory => .error .isDirectory
  | .file (.bytes _) => .error .notText
  | .file (.text s) => .ok s

def makeDirectory (p : FilePath) : Disk Unit := fun t =>
  match t.locate p with
  | .error e => (.error e, t)
  | .ok place =>
    match t.entry? place with
    | some _ => (.error .exists, t)
    | none => (.ok (), t.put place .directory)

def ensureDirectory (p : FilePath) : Disk Unit := fun t =>
  match makeDirectory p t with
  | (.ok (), t) => (.ok (), t)
  | (.error e, t) => (if t.isDirectory p then .ok () else .error e, t)

/-- Makes the directory of these pieces, the last piece first, and those above it that are
missing. -/
def ensurePieces (absolute : Bool) : List String → Disk Unit
  | [] => fun t => (.ok (), t)
  | piece :: above => fun t =>
    if FilePath.isIdle piece then ensurePieces absolute above t
    else
      let p := FilePath.ofPieces absolute (piece :: above).reverse
      match ensureDirectory p t with
      | (.error .noEntry, t) =>
        match ensurePieces absolute above t with
        | (.ok (), t) => ensureDirectory p t
        | failed => failed
      | done => done

def ensureDirectories (p : FilePath) : Disk Unit := ensurePieces p.isAbsolute p.pieces.reverse

def write (p : FilePath) (content : Content) : Disk Unit := fun t =>
  match t.approach p with
  | .error e => (.error e, t)
  | .ok (_, none) => (.error .isDirectory, t)
  | .ok (place, some name) =>
    if p.endsInSlash then (.error .isDirectory, t)
    else match t.step place name with
      | .error e => (.error e, t)
      | .ok place =>
        match t.entry? place with
        | some .directory => (.error .isDirectory, t)
        | _ => (.ok (), t.put place (.file content))

/-- Moves a file into the place of another, or to a new place in a directory that is there. A path
that ends in no name cannot be moved or moved to. -/
def rename (source target : FilePath) : Disk Unit := fun t =>
  match t.approach source, t.approach target with
  | .error e, _ | _, .error e => (.error e, t)
  | .ok (_, none), _ | _, .ok (_, none) => (.error .busy, t)
  | .ok (oldDirectory, some oldName), .ok (newDirectory, some newName) =>
    match t.step oldDirectory oldName, t.step newDirectory newName with
    | .error e, _ => (.error e, t)
    | .ok old, new =>
      match t.entry? old, new with
      | none, _ => (.error .noEntry, t)
      | _, .error e => (.error e, t)
      | some .directory, _ => (.error .isDirectory, t)
      | some (.file content), .ok new =>
        if source.endsInSlash || target.endsInSlash then (.error .notDirectory, t)
        else match t.entry? new with
          | some .directory => (.error .isDirectory, t)
          | _ => (.ok (), (t.remove old).put new (.file content))

def delete (p : FilePath) : Disk Unit := fun t =>
  match t.locate p with
  | .error e => (.error e, t)
  | .ok place =>
    match t.entry? place with
    | none => (.error .noEntry, t)
    | some .directory => (.error .isDirectory, t)
    | some (.file _) =>
      if p.endsInSlash then (.error .notDirectory, t) else (.ok (), t.remove place)

end FileTree

end ShellSettings
