import Stepbook.Text.CaseFold
import Stepbook.Text.Property

/-! # Sets of characters in patterns

* `CharSet`: the sets that a pattern can write.
* `CharSet.contains`: membership.
* `CharSet.join`: the union, without an empty part.
-/

namespace Stepbook.Regex
set_option autoImplicit false

inductive CharSet where
  | empty
  | range (first last : Char)
  | property (value : Text.Property)
  | union (left right : CharSet)
  | inter (left right : CharSet)
  | diff (left right : CharSet)
  | symmDiff (left right : CharSet)
  | compl (set : CharSet)
  /-- Every character that differs at most in case from one of the set. -/
  | caseless (ascii : Bool) (set : CharSet)
  deriving DecidableEq, Repr

namespace CharSet

/-- The characters that differ from `c` at most in case, of ASCII alone or of all characters. -/
def variants (ascii : Bool) (c : Char) : List Char :=
  if ascii then [c, c.toLower, c.toUpper] else Text.caseVariants c

def contains : CharSet → Char → Bool
  | .empty, _ => false
  | .range first last, c => first ≤ c && c ≤ last
  | .property value, c => value.holds c
  | .union left right, c => left.contains c || right.contains c
  | .inter left right, c => left.contains c && right.contains c
  | .diff left right, c => left.contains c && !right.contains c
  | .symmDiff left right, c => left.contains c != right.contains c
  | .compl set, c => !set.contains c
  | .caseless ascii set, c => (variants ascii c).any fun variant => set.contains variant

def single (c : Char) : CharSet :=
  .range c c

def all : CharSet :=
  .compl .empty

def join : CharSet → CharSet → CharSet
  | .empty, right => right
  | left, .empty => left
  | left, right => .union left right

def joinAll (sets : List CharSet) : CharSet :=
  sets.foldl join .empty

/-! ## Membership -/

@[simp] theorem contains_single (c d : Char) : (single c).contains d = (c == d) := by
  by_cases h : c = d
  · subst h
    simp [single, contains]
  · have apart : ¬ (c ≤ d ∧ d ≤ c) := fun both => h (Char.le_antisymm both.1 both.2)
    rw [beq_eq_false_iff_ne.2 h]
    simpa [single, contains] using apart

@[simp] theorem contains_join (left right : CharSet) (c : Char) :
    (join left right).contains c = (left.contains c || right.contains c) := by
  cases left <;> cases right <;> simp [join, contains]

/-! ## ASCII classes -/

private def ranges (pairs : List (Char × Char)) : CharSet :=
  joinAll (pairs.map fun pair => .range pair.1 pair.2)

def asciiDigit : CharSet := .range '0' '9'

def asciiBlank : CharSet := ranges [('\t', '\r'), (' ', ' ')]

def asciiWordChar : CharSet := ranges [('0', '9'), ('A', 'Z'), ('_', '_'), ('a', 'z')]

/-- The class that a bracketed name such as `[:alpha:]` stands for. -/
def asciiNamed? (name : List Char) : Option CharSet :=
  match String.ofList name with
  | "alnum" => some (ranges [('0', '9'), ('A', 'Z'), ('a', 'z')])
  | "alpha" => some (ranges [('A', 'Z'), ('a', 'z')])
  | "ascii" => some (.range '\x00' '\x7f')
  | "blank" => some (ranges [('\t', '\t'), (' ', ' ')])
  | "cntrl" => some (ranges [('\x00', '\x1f'), ('\x7f', '\x7f')])
  | "digit" => some asciiDigit
  | "graph" => some (.range '!' '~')
  | "lower" => some (.range 'a' 'z')
  | "print" => some (.range ' ' '~')
  | "punct" => some (ranges [('!', '/'), (':', '@'), ('[', '\x60'), ('\x7b', '~')])
  | "space" => some asciiBlank
  | "upper" => some (.range 'A' 'Z')
  | "word" => some asciiWordChar
  | "xdigit" => some (ranges [('0', '9'), ('A', 'F'), ('a', 'f')])
  | _ => none

end CharSet

end Stepbook.Regex
