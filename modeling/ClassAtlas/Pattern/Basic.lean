import ClassAtlas.Pattern.CharClass

/-!
# Patterns

Regular expressions over characters and their meaning. A pattern is read at a spot of a text and can
end at several spots; `ends` lists them, each once. Whether a pattern occurs in a text is all that
rules ask, so greed makes no difference.

A repetition is followed until no new spot turns up. A text of `n` characters has `n + 1` spots, so
that many rounds suffice.
-/

namespace ClassAtlas

/-- What can be asked about a spot without reading a character. -/
inductive Assertion where
  | textStart
  | textEnd
  | lineStart
  | lineEnd
  | wordBoundary
  | noWordBoundary
  | wordStart
  | wordEnd
  | noWordBefore
  | noWordAfter
deriving DecidableEq, Repr, Inhabited

/-- A regular expression. -/
inductive Pattern where
  | empty
  | one (set : CharClass)
  | check (assertion : Assertion)
  | seq (a b : Pattern)
  | alt (a b : Pattern)
  /-- At least `least` and, if `most` is given, at most that many in a row. -/
  | many (body : Pattern) (least : Nat) (most : Option Nat)
deriving DecidableEq, Repr, Inhabited

namespace Pattern

/-- A place between two characters: the one before it, if any, and the text after it. -/
structure Spot where
  before : Option Char
  rest : List Char
deriving DecidableEq, Repr

namespace Spot

/-- The start of a text. -/
def start (text : List Char) : Spot :=
  ⟨none, text⟩

/-- The spots after a given one, in order. -/
def after : List Char → List Spot
  | [] => []
  | c :: rest => ⟨some c, rest⟩ :: after rest

/-- All spots of a text. -/
def all (text : List Char) : List Spot :=
  start text :: after text

/-- A word character stands before the spot. -/
def wordBefore (s : Spot) : Bool :=
  s.before.any Text.isWordChar

/-- A word character stands after the spot. -/
def wordAfter (s : Spot) : Bool :=
  s.rest.head?.any Text.isWordChar

end Spot

/-- An assertion holds at a spot. -/
def Assertion.holds (assertion : Assertion) (s : Spot) : Bool :=
  match assertion with
  | .textStart => s.before.isNone
  | .textEnd => s.rest.isEmpty
  | .lineStart => s.before.isNone || s.before == some '\n'
  | .lineEnd => s.rest.isEmpty || s.rest.head? == some '\n'
  | .wordBoundary => s.wordBefore != s.wordAfter
  | .noWordBoundary => s.wordBefore == s.wordAfter
  | .wordStart => !s.wordBefore && s.wordAfter
  | .wordEnd => s.wordBefore && !s.wordAfter
  | .noWordBefore => !s.wordBefore
  | .noWordAfter => !s.wordAfter

/-- Exactly `count` rounds of a step; stops early when a round changes nothing. -/
def exactly (step : List Spot → List Spot) : Nat → List Spot → List Spot
  | 0, spots => spots
  | count + 1, spots =>
    let next := step spots
    if next = spots then spots else exactly step count next

/-- At most `count` rounds of a step, all results together; stops early when a round adds nothing. -/
def atMost (step : List Spot → List Spot) : Nat → List Spot → List Spot
  | 0, spots => spots
  | count + 1, spots =>
    let next := (spots ++ step spots).eraseDups
    if next.length = spots.length then spots else atMost step count next

/-- The spots where a pattern that is read from a spot can end. -/
def ends : Pattern → Spot → List Spot
  | .empty, s => [s]
  | .one set, s =>
    match s.rest with
    | [] => []
    | c :: rest => if set.holds c then [⟨some c, rest⟩] else []
  | .check assertion, s => if Assertion.holds assertion s then [s] else []
  | .seq a b, s => ((a.ends s).flatMap (fun t => b.ends t)).eraseDups
  | .alt a b, s => (a.ends s ++ b.ends s).eraseDups
  | .many body least most, s =>
    let step := fun spots => (spots.flatMap (fun t => body.ends t)).eraseDups
    let first := exactly step least [s]
    match most with
    | none => atMost step (s.rest.length + 1) first
    | some most => atMost step (most - least) first

/-- The pattern occurs somewhere in the text. -/
def occursIn (p : Pattern) (text : List Char) : Bool :=
  (Spot.all text).any (fun s => !(p.ends s).isEmpty)

/-- The pattern describes the whole text. -/
def describes (p : Pattern) (text : List Char) : Bool :=
  (p.ends (Spot.start text)).any (fun s => s.rest.isEmpty)

/-- One pattern after the other. -/
def sequence : List Pattern → Pattern
  | [] => .empty
  | [p] => p
  | p :: rest => .seq p (sequence rest)

/-- Any of several patterns; with none, nothing is described. -/
def choice : List Pattern → Pattern
  | [] => .one .empty
  | [p] => p
  | p :: rest => .alt p (choice rest)

end Pattern

end ClassAtlas
