/-!
# Fresh ids

Ids come from a source that promises nothing: it may repeat itself. A search
draws from it until an id is free, a bounded number of times.
-/

namespace ShellSettings

/-- An endless sequence of ids and how many have been drawn from it. -/
structure IdSource where
  id : Nat → String
  drawn : Nat := 0

namespace IdSource

def next (s : IdSource) : String × IdSource := (s.id s.drawn, { s with drawn := s.drawn + 1 })

def maxAttempts : Nat := 16

/-- Draws at most so many ids, up to the first that is free. -/
def search (free : String → Bool) : Nat → IdSource → Option String × IdSource
  | 0, s => (none, s)
  | attempts + 1, s =>
    let (id, s) := s.next
    if free id then (some id, s) else search free attempts s

def fresh (free : String → Bool) (s : IdSource) : Option String × IdSource :=
  search free maxAttempts s

end IdSource

namespace Ulid

def alphabet : List Char := "0123456789abcdefghjkmnpqrstvwxyz".toList

/-- The text of a number of 128 bits: 26 digits of base 32 in lower case. -/
def text (n : Nat) : String :=
  String.ofList ((List.range 26).map fun i => alphabet.getD (n / Nat.pow 32 (25 - i) % 32) '0')

/-- Ids that begin with the time, in milliseconds, and go on with 80 bits of chance. -/
def source (time : Nat) (chance : Nat → Nat) : IdSource where
  id n := text (time % Nat.pow 2 48 * Nat.pow 2 80 + chance n % Nat.pow 2 80)

end Ulid

end ShellSettings
