/-!
# Command-line arguments

A command line is words that name a command, options, and operands. Options that
every command takes may stand anywhere, also before the command's words; the one
nearest to the operands counts. `--` ends the options. An option's value may be
attached (`--file=x`, `-fx`, `-f=x`) or be the argument after it, which then must
not look like an option.

Arguments are taken one by one, so that a request for help is granted if no
fault stands before it. A value that is not attached is looked at when the next
option or operand of its level comes, or else when the level ends; a command's
own arguments come first.
-/

namespace ShellSettings.Cli

inductive ValueKind where
  | text
  -- A file path, which is not empty.
  | path
deriving DecidableEq, Repr

structure OptionForm where
  name : String
  letter : Option Char := none
  -- What its value is; a switch has none.
  value : Option ValueKind := none
  repeatable : Bool := false
deriving DecidableEq, Repr

/-- A command: the words that name it, and what it takes. -/
structure CommandForm where
  words : List String
  options : List OptionForm := []
  operands : List ValueKind := []
  -- How many of the operands may not be left out.
  required : Nat := operands.length
  -- Whether any number of texts may follow.
  openEnded : Bool := false
deriving DecidableEq, Repr

structure Grammar where
  -- Options that every command takes.
  shared : List OptionForm
  commands : List CommandForm
deriving DecidableEq, Repr

inductive Stop where
  | help
  | version
  | usage
deriving DecidableEq, Repr

/-- A command as it was given. A switch has the empty text as its value. -/
structure Given where
  words : List String
  options : List (String × String)
  operands : List String
deriving DecidableEq, Repr

namespace Given

def value? (g : Given) (name : String) : Option String := g.options.lookup name

def has (g : Given) (name : String) : Bool := (g.value? name).isSome

def values (g : Given) (name : String) : List String :=
  (g.options.filter (·.1 == name)).map (·.2)

end Given

def ValueKind.admits : ValueKind → String → Bool
  | .text, _ => true
  | .path, s => !s.isEmpty

structure Taken where
  options : List (String × String) := []
  operands : List String := []
  -- An option whose value comes, or has come, in an argument of its own.
  pending : Option (OptionForm × Option String) := none

namespace Taken

def awaitsValue (t : Taken) : Bool :=
  match t.pending with
  | some (_, none) => true
  | _ => false

def accept (t : Taken) (o : OptionForm) (value : String) : Except Stop Taken :=
  if !(o.value.getD .text).admits value || (!o.repeatable && (t.options.lookup o.name).isSome) then
    .error .usage
  else .ok { t with options := t.options ++ [(o.name, value)] }

def settle (t : Taken) : Except Stop Taken :=
  match t.pending with
  | none => .ok t
  | some (_, none) => .error .usage
  | some (o, some value) => { t with pending := none }.accept o value

def takeOption (t : Taken) (o : OptionForm) (attached : Option String) : Except Stop Taken := do
  let t ← t.settle
  match o.value, attached with
  | none, some _ => .error .usage
  | none, none =>
    if o.name = "help" then .error .help
    else if o.name = "version" then .error .version
    else t.accept o ""
  | some _, some value => t.accept o value
  | some _, none => .ok { t with pending := some (o, none) }

/-- Takes a cluster of letters; the first with a value takes the rest for it. -/
def takeLetters (options : List OptionForm) : List Char → Taken → Except Stop Taken
  | [], t => .ok t
  | c :: cs, t =>
    match options.find? (·.letter == some c) with
    | none => .error .usage
    | some o =>
      match o.value, cs with
      | none, _ => do takeLetters options cs (← t.takeOption o none)
      | some _, [] => t.takeOption o none
      | some _, '=' :: value => t.takeOption o (some (String.ofList value))
      | some _, value => t.takeOption o (some (String.ofList value))

def takeName (options : List OptionForm) (cs : List Char) (t : Taken) : Except Stop Taken :=
  let name := String.ofList (cs.takeWhile (· != '='))
  match options.find? (·.name == name), cs.dropWhile (· != '=') with
  | none, _ => .error .usage
  | some o, [] => t.takeOption o none
  | some o, _ :: value => t.takeOption o (some (String.ofList value))

def takeOperand (form : Option CommandForm) (value : String) (t : Taken) : Except Stop Taken := do
  let t ← t.settle
  match form with
  | none => .error .usage
  | some form =>
    match form.operands[t.operands.length]? with
    | some kind =>
      if kind.admits value then .ok { t with operands := t.operands ++ [value] }
      else .error .usage
    | none =>
      if form.openEnded then .ok { t with operands := t.operands ++ [value] } else .error .usage

end Taken

namespace Grammar

def helpOption : OptionForm := { name := "help", letter := some 'h' }

def versionOption : OptionForm := { name := "version", letter := some 'V' }

def helpWord : String := "help"

def command? (g : Grammar) (words : List String) : Option CommandForm :=
  g.commands.find? (·.words == words)

def isGroup (g : Grammar) (words : List String) : Bool :=
  g.commands.any fun c => words.isPrefixOf c.words && words != c.words

def admits (g : Grammar) (words : List String) : Bool :=
  g.commands.any fun c => words.isPrefixOf c.words

/-- The options that may stand after these words. Only the whole program has a version. -/
def optionsAt (g : Grammar) (words : List String) : List OptionForm :=
  g.shared ++ (((g.command? words).map (·.options)).getD []) ++ [helpOption] ++
    (if words.isEmpty then [versionOption] else [])

def helpOn (g : Grammar) : List String → List String → Stop
  | _, [] => .help
  | words, w :: rest =>
    if g.admits (words ++ [w]) then g.helpOn (words ++ [w]) rest
    else if w = helpWord ∧ g.isGroup words ∧ rest.isEmpty then .help
    else .usage

/-- A level is complete if its words name a command that has the operands it needs. -/
def complete (g : Grammar) (words : List String) (t : Taken) : Except Stop Given := do
  let t ← t.settle
  match g.command? words with
  | none => .error .usage
  | some form =>
    if t.operands.length < form.required then .error .usage
    else .ok ⟨words, t.options, t.operands⟩

/-- Takes the arguments of the level named by `words`. After `ended`, none is an option. -/
def scan (g : Grammar) (words : List String) (t : Taken) (ended : Bool) :
    List String → Except Stop Given
  | [] => g.complete words t
  | a :: rest =>
    let operand := fun () => do
      g.scan words (← t.takeOperand (g.command? words) a) ended rest
    if ended then operand ()
    else if !t.awaitsValue && g.isGroup words && g.admits (words ++ [a]) then do
      let given ← g.scan (words ++ [a]) {} false rest
      let t ← t.settle
      return { given with options := given.options ++ t.options }
    else if !t.awaitsValue && g.isGroup words && a == helpWord then
      .error (g.helpOn words rest)
    else
      match a.toList with
      | ['-', '-'] => g.scan words t true rest
      | '-' :: '-' :: cs => do g.scan words (← t.takeName (g.optionsAt words) cs) false rest
      | '-' :: c :: cs => do
        g.scan words (← Taken.takeLetters (g.optionsAt words) (c :: cs) t) false rest
      | _ =>
        match t.pending with
        | some (o, none) => g.scan words { t with pending := some (o, some a) } false rest
        | _ => operand ()

def parse (g : Grammar) (args : List String) : Except Stop Given := g.scan [] {} false args

end Grammar

end ShellSettings.Cli
