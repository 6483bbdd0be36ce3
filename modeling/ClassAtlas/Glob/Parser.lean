import ClassAtlas.Glob.Basic

/-!
# Reading globs

A glob is refused if a bracket or a brace is not closed, a closing brace was not opened, a range runs
backwards, or a backslash has nothing after it. Where unclosed brackets are tolerated, such a bracket
and all later ones stand for themselves.
-/

namespace ClassAtlas

namespace Glob

/-- The members of a bracket from behind its opening and its negation. -/
structure SetReading where
  /-- The ranges so far, last one first. -/
  ranges : List (Char × Char) := []
  /-- Nothing has been read yet, so a closing bracket or a hyphen stands for itself. -/
  first : Bool := true
  /-- A hyphen was read and the end of its range is due. -/
  inRange : Bool := false

/-- The result of reading a bracket. -/
inductive SetResult where
  | closed (ranges : List (Char × Char)) (rest : List Char)
  | unclosed
  | backwards

/-- Puts the end of a range; it must not lie before its start. -/
def endRange (ranges : List (Char × Char)) (c : Char) : Option (List (Char × Char)) :=
  match ranges with
  | (start, _) :: before => if start ≤ c then some ((start, c) :: before) else none
  | [] => none

/-- Reads the members of a bracket up to its end. -/
def readSet (reading : SetReading) : List Char → SetResult
  | [] => .unclosed
  | c :: rest =>
    if c = ']' ∧ !reading.first then
      .closed (if reading.inRange then ('-', '-') :: reading.ranges else reading.ranges).reverse rest
    else if c = '-' ∧ !reading.first ∧ !reading.inRange then
      readSet { reading with first := false, inRange := true } rest
    else if reading.inRange then
      match endRange reading.ranges c with
      | some ranges => readSet { ranges := ranges, first := false, inRange := false } rest
      | none => .backwards
    else readSet { ranges := (c, c) :: reading.ranges, first := false, inRange := false } rest

/-- A bracket from behind its opening: with `!` or `^` it stands for the other bytes. -/
def bracket (cs : List Char) : Bool × SetResult :=
  match cs with
  | '!' :: rest => (true, readSet {} rest)
  | '^' :: rest => (true, readSet {} rest)
  | _ => (false, readSet {} cs)

/-- An open brace: the alternatives that are finished, last one first, and the pieces before it. -/
structure OpenBrace where
  done : List (List GlobToken)
  outer : List GlobToken

/-- A glob while it is read. -/
structure Reading where
  /-- The pieces of the current alternative, last one first. -/
  current : List GlobToken := []
  /-- The open braces, innermost first. -/
  braces : List OpenBrace := []
  /-- The last character read. -/
  last : Option Char := none
  /-- Brackets stand for themselves, since one was not closed. -/
  plainBrackets : Bool := false

namespace Reading

/-- Adds a piece. -/
def push (r : Reading) (token : GlobToken) (last : Char) : Reading :=
  { r with current := token :: r.current, last := some last }

/-- A double star that does not stand for directories is two stars. -/
def pushStars (r : Reading) : Reading :=
  { r with current := .star :: .star :: r.current, last := some '*' }

/-- A double star after a slash takes the place of the slash, unless directories stand there
already. -/
def replaceLast (r : Reading) (token : GlobToken) (last : Char) : Reading :=
  match r.current with
  | .leading :: _ => { r with last := some last }
  | .trailing :: _ => { r with last := some last }
  | _ :: before => { r with current := token :: before, last := some last }
  | [] => { r with current := [token], last := some last }

/-- A double star, with the text after it; gives the text that is left. -/
def doubleStar (r : Reading) (rest : List Char) : Reading × List Char :=
  if r.current.isEmpty then
    match rest with
    | [] => (r.push .leading '*', [])
    | '/' :: more => (r.push .leading '/', more)
    | _ => (r.pushStars, rest)
  else if r.last != some '/' && (r.braces.isEmpty || (r.last != some ',' && r.last != some '\x7b')) then
    (r.pushStars, rest)
  else
    match rest with
    | [] => (r.replaceLast .trailing '*', [])
    | '/' :: more => (r.replaceLast .between '/', more)
    | c :: _ =>
      if (c == ',' || c == '\x7d') && !r.braces.isEmpty then (r.replaceLast .trailing '*', rest)
      else (r.pushStars, rest)

/-- A closing brace ends the alternatives of the innermost open one. -/
def closeBrace (r : Reading) : Option Reading :=
  match r.braces with
  | [] => none
  | brace :: others =>
    let branches := (r.current :: brace.done).reverse.map List.reverse
    some { r with current := .choice branches :: brace.outer, braces := others, last := some '\x7d' }

/-- A comma in braces starts the next alternative; elsewhere it stands for itself. -/
def comma (r : Reading) : Reading :=
  match r.braces with
  | [] => r.push (.char ',') ','
  | brace :: others =>
    { r with current := [], braces := { brace with done := r.current :: brace.done } :: others,
             last := some ',' }

end Reading

/-- Reads a glob, with `fuel` for the characters still to read. -/
def read (tolerant : Bool) : Nat → Reading → List Char → Option Reading
  | _, r, [] => some r
  | 0, _, _ :: _ => none
  | fuel + 1, r, c :: rest =>
    match c with
    | '?' => read tolerant fuel (r.push .any '?') rest
    | '*' =>
      match rest with
      | '*' :: more =>
        let (next, left) := r.doubleStar more
        read tolerant fuel next left
      | _ => read tolerant fuel (r.push .star '*') rest
    | '[' =>
      if r.plainBrackets then read tolerant fuel (r.push (.char '[') '[') rest
      else
        match bracket rest with
        | (negated, .closed ranges after) =>
          read tolerant fuel (r.push (.set negated ranges) ']') after
        | (_, .unclosed) =>
          if tolerant then
            read tolerant fuel { r.push (.char '[') '[' with plainBrackets := true } rest
          else none
        | (_, .backwards) => none
    | '\x7b' =>
      let opened := { r with current := [], braces := ⟨[], r.current⟩ :: r.braces, last := some c }
      read tolerant fuel opened rest
    | '\x7d' =>
      match r.closeBrace with
      | some closed => read tolerant fuel closed rest
      | none => none
    | ',' => read tolerant fuel r.comma rest
    | '\\' =>
      match rest with
      | [] => none
      | d :: more => read tolerant fuel (r.push (.char d) d) more
    | _ => read tolerant fuel (r.push (.char c) c) rest

/-- The glob that a text writes, if it is one. -/
def parse? (text : String) (strict tolerant : Bool) : Option Glob :=
  let cs := text.toList
  match read tolerant cs.length {} cs with
  | some r => if r.braces.isEmpty then some ⟨r.current.reverse, strict⟩ else none
  | none => none

end Glob

end ClassAtlas
