import ClassAtlas.Text.Blank
import ClassAtlas.Text.CaseFold
import ClassAtlas.Text.Digit
import ClassAtlas.Text.WordChar

/-!
# Classes of characters

The sets of characters that a pattern can ask for at one place.
-/

namespace ClassAtlas

/-- A set of characters. -/
inductive CharClass where
  | empty
  /-- The characters from one code point to another, both included. -/
  | range (first last : Nat)
  /-- Decimal digits. -/
  | digit
  /-- Word characters. -/
  | word
  /-- Blanks. -/
  | blank
  /-- The characters that differ from a member at most in case. -/
  | anyCase (inner : CharClass)
  | union (a b : CharClass)
  | inter (a b : CharClass)
  | compl (a : CharClass)
deriving DecidableEq, Repr, Inhabited

namespace CharClass

/-- A character is in the set. -/
def holds : CharClass → Char → Bool
  | .empty, _ => false
  | .range first last, c => first ≤ c.toNat && c.toNat ≤ last
  | .digit, c => Text.isDecimalDigit c
  | .word, c => Text.isWordChar c
  | .blank, c => Text.isBlank c
  | .anyCase inner, c => (Text.caseVariants c.toNat).any (fun n => inner.holds (Char.ofNat n))
  | .union a b, c => a.holds c || b.holds c
  | .inter a b, c => a.holds c && b.holds c
  | .compl a, c => !a.holds c

/-- The set with one character. -/
def single (c : Char) : CharClass :=
  .range c.toNat c.toNat

/-- Every character. -/
def all : CharClass :=
  .compl .empty

/-- Every character but the line feed. -/
def notNewline : CharClass :=
  .compl (single '\n')

/-- The set read without regard to case: each range is widened before sets are combined, so the
complement of `a` excludes `A` too. -/
def foldCase : CharClass → CharClass
  | .range first last => .anyCase (.range first last)
  | .union a b => .union a.foldCase b.foldCase
  | .inter a b => .inter a.foldCase b.foldCase
  | .compl a => .compl a.foldCase
  | other => other

/-- The members of the first set that are not in the second. -/
def diff (a b : CharClass) : CharClass :=
  .inter a (.compl b)

/-- The members of exactly one of two sets. -/
def symmDiff (a b : CharClass) : CharClass :=
  .union (diff a b) (diff b a)

/-- The set, or its complement. -/
def negateIf (negated : Bool) (a : CharClass) : CharClass :=
  if negated then .compl a else a

/-- The ASCII classes that a bracket can name. -/
def ofName? : String → Option CharClass
  | "alnum" => some (.union (.range 0x30 0x39) (.union (.range 0x41 0x5A) (.range 0x61 0x7A)))
  | "alpha" => some (.union (.range 0x41 0x5A) (.range 0x61 0x7A))
  | "ascii" => some (.range 0x00 0x7F)
  | "blank" => some (.union (single '\t') (single ' '))
  | "cntrl" => some (.union (.range 0x00 0x1F) (.range 0x7F 0x7F))
  | "digit" => some (.range 0x30 0x39)
  | "graph" => some (.range 0x21 0x7E)
  | "lower" => some (.range 0x61 0x7A)
  | "print" => some (.range 0x20 0x7E)
  | "punct" => some (.union (.union (.range 0x21 0x2F) (.range 0x3A 0x40))
      (.union (.range 0x5B 0x60) (.range 0x7B 0x7E)))
  | "space" => some (.union (.range 0x09 0x0D) (single ' '))
  | "upper" => some (.range 0x41 0x5A)
  | "word" => some (.union (.range 0x30 0x39)
      (.union (.range 0x41 0x5A) (.union (single '_') (.range 0x61 0x7A))))
  | "xdigit" => some (.union (.range 0x30 0x39) (.union (.range 0x41 0x46) (.range 0x61 0x66)))
  | _ => none

end CharClass

end ClassAtlas
