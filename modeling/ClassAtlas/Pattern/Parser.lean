import ClassAtlas.Pattern.Basic

/-!
# Reading patterns

The text of a pattern is cut into tokens, and a stack of open groups turns the tokens into a pattern.
A text that is no pattern gives `none`: an unclosed group or bracket, a repetition of nothing, a range
or a count that runs backwards, an unknown escape.

Flags such as `(?i)` hold from where they stand to the end of the group around them, also in the
alternatives that follow.

This is the reader that the program brings along, and no law of the library rests on it. It does not know
the classes of characters that have a name of their own, such as `\pL`, and the flags `u`, `U` and `R`
change nothing.
-/

namespace ClassAtlas

namespace Pattern

/-- The switches that change how a pattern is read. -/
structure Flags where
  ignoreCase : Bool := false
  multiLine : Bool := false
  dotAll : Bool := false
  verbose : Bool := false
deriving DecidableEq, Repr, Inhabited

/-- The pieces of a pattern's text. -/
inductive Token where
  /-- A character that stands for itself; `plain` if it is written without a backslash. -/
  | char (c : Char) (plain : Bool)
  | set (set : CharClass)
  | dot
  | caret
  | dollar
  | check (assertion : Assertion)
  | bar
  /-- A group opens, with a name or with flags of its own. -/
  | opening (name : Option String) (on off : List Char)
  | closing
  /-- Flags for the rest of the group. -/
  | switch (on off : List Char)
  | repetition (least : Nat) (most : Option Nat)
deriving Repr

/-! ## Escapes -/

/-- The text up to a mark, and the text after it. -/
def upTo (mark : Char) (cs : List Char) : Option (List Char × List Char) :=
  match cs.dropWhile (· != mark) with
  | [] => none
  | _ :: rest => some (cs.takeWhile (· != mark), rest)

/-- A character by its number: so many hexadecimal digits, or any number of them in braces. -/
def codeEscape (width : Nat) (cs : List Char) : Option (Char × List Char) :=
  match cs with
  | '\x7b' :: inner => do
    let (digits, rest) ← upTo '\x7d' inner
    if digits.isEmpty then none
    else
      let n ← Text.hexNumber? digits
      let c ← Text.charOfCode? n
      some (c, rest)
  | _ =>
    let digits := cs.take width
    if digits.length = width then do
      let n ← Text.hexNumber? digits
      let c ← Text.charOfCode? n
      some (c, cs.drop width)
    else none

/-- The characters that a backslash makes plain: all of ASCII but letters, digits, `<` and `>`. -/
def isEscapable (c : Char) : Bool :=
  c.toNat < 0x80 && !c.isAlphanum && c != '<' && c != '>'

/-- The boundaries that can be named in braces after `\b`. -/
def namedBoundary? (name : String) : Option Assertion :=
  match name with
  | "start" => some .wordStart
  | "end" => some .wordEnd
  | "start-half" => some .noWordBefore
  | "end-half" => some .noWordAfter
  | _ => none

/-- The word boundary after `\b`: a plain one, or one named in braces. Braces that do not start with
a letter are left for a count. -/
def boundary (cs : List Char) : Option (Token × List Char) :=
  match cs with
  | '\x7b' :: c :: inner =>
    if c.isAlpha || c == '-' then do
      let (name, rest) ← upTo '\x7d' (c :: inner)
      let assertion ← namedBoundary? (String.ofList name)
      some (.check assertion, rest)
    else some (.check .wordBoundary, cs)
  | _ => some (.check .wordBoundary, cs)

/-- The token after a backslash. -/
def escape (cs : List Char) : Option (Token × List Char) :=
  match cs with
  | [] => none
  | 'd' :: rest => some (.set .digit, rest)
  | 'D' :: rest => some (.set (.compl .digit), rest)
  | 'w' :: rest => some (.set .word, rest)
  | 'W' :: rest => some (.set (.compl .word), rest)
  | 's' :: rest => some (.set .blank, rest)
  | 'S' :: rest => some (.set (.compl .blank), rest)
  | 'b' :: rest => boundary rest
  | 'B' :: rest => some (.check .noWordBoundary, rest)
  | 'A' :: rest => some (.check .textStart, rest)
  | 'z' :: rest => some (.check .textEnd, rest)
  | '<' :: rest => some (.check .wordStart, rest)
  | '>' :: rest => some (.check .wordEnd, rest)
  | 'a' :: rest => some (.char '\x07' false, rest)
  | 'f' :: rest => some (.char '\x0c' false, rest)
  | 't' :: rest => some (.char '\t' false, rest)
  | 'n' :: rest => some (.char '\n' false, rest)
  | 'r' :: rest => some (.char '\r' false, rest)
  | 'v' :: rest => some (.char '\x0b' false, rest)
  | 'x' :: rest => (codeEscape 2 rest).map (fun (c, after) => (.char c false, after))
  | 'u' :: rest => (codeEscape 4 rest).map (fun (c, after) => (.char c false, after))
  | 'U' :: rest => (codeEscape 8 rest).map (fun (c, after) => (.char c false, after))
  | c :: rest => if isEscapable c then some (.char c false, rest) else none

/-! ## Bracketed classes -/

/-- How two parts of a bracket are combined. -/
inductive SetOp where
  | inter
  | diff
  | symmDiff
deriving Repr

/-- Applies the operation that is waiting for its second operand. -/
def combine (pending : Option (SetOp × CharClass)) (set : CharClass) : CharClass :=
  match pending with
  | none => set
  | some (.inter, left) => .inter left set
  | some (.diff, left) => .diff left set
  | some (.symmDiff, left) => .symmDiff left set

/-- One member of a bracket: a character, or a set written by an escape. -/
def setItem (cs : List Char) : Option ((Char ⊕ CharClass) × List Char) :=
  match cs with
  | [] => none
  | '\\' :: rest =>
    match escape rest with
    | some (.char c _, after) => some (.inl c, after)
    | some (.set set, after) => some (.inr set, after)
    | _ => none
  | c :: rest => some (.inl c, rest)

/-- A member or a range of characters. A hyphen before the closing bracket or before another hyphen
makes no range. -/
def setRange (cs : List Char) : Option (CharClass × List Char) := do
  let (first, rest) ← setItem cs
  match rest with
  | '-' :: after =>
    match after with
    | ']' :: _ => single first rest
    | '-' :: _ => single first rest
    | [] => none
    | _ =>
      let (last, final) ← setItem after
      match first, last with
      | .inl a, .inl b => if a ≤ b then some (.range a.toNat b.toNat, final) else none
      | _, _ => none
  | _ => single first rest
where
  /-- The member by itself. -/
  single (item : Char ⊕ CharClass) (rest : List Char) : Option (CharClass × List Char) :=
    match item with
    | .inl c => some (.single c, rest)
    | .inr set => some (set, rest)

/-- The ASCII class named between `[:` and `:]`, if that is what follows. -/
def namedClass? (cs : List Char) : Option (CharClass × List Char) :=
  match cs with
  | ':' :: inner =>
    let negated := inner.head? == some '^'
    let body := if negated then inner.drop 1 else inner
    match upTo ':' body with
    | some (name, ']' :: rest) =>
      (CharClass.ofName? (String.ofList name)).map (fun set => (.negateIf negated set, rest))
    | _ => none
  | _ => none

/-- Hyphens at the front of a bracket stand for themselves. -/
def leadingHyphens : List Char → CharClass × List Char
  | '-' :: rest => let (_, after) := leadingHyphens rest; (.single '-', after)
  | cs => (.empty, cs)

/-- How a bracket starts behind its opening: with a caret it is a complement; then come hyphens, or a
closing bracket, that stand for themselves. -/
def setStart (cs : List Char) : Bool × CharClass × List Char :=
  let negated := cs.head? == some '^'
  let (hyphens, after) := leadingHyphens (if negated then cs.drop 1 else cs)
  match hyphens, after with
  | .empty, ']' :: rest => (negated, .single ']', rest)
  | _, _ => (negated, hyphens, after)

/-- The members of a bracket up to its end, with `fuel` for the characters still to read. -/
def setBody : Nat → Bool → Option (SetOp × CharClass) → CharClass → List Char →
    Option (CharClass × List Char)
  | 0, _, _, _, _ => none
  | fuel + 1, negated, pending, members, cs =>
    match cs with
    | [] => none
    | ']' :: rest => some (.negateIf negated (combine pending members), rest)
    | '&' :: '&' :: rest => setBody fuel negated (some (.inter, combine pending members)) .empty rest
    | '-' :: '-' :: rest => setBody fuel negated (some (.diff, combine pending members)) .empty rest
    | '~' :: '~' :: rest =>
      setBody fuel negated (some (.symmDiff, combine pending members)) .empty rest
    | '[' :: rest =>
      match namedClass? rest with
      | some (set, after) => setBody fuel negated pending (.union members set) after
      | none =>
        let (inside, own, body) := setStart rest
        match setBody fuel inside none own body with
        | some (set, after) => setBody fuel negated pending (.union members set) after
        | none => none
    | _ =>
      match setRange cs with
      | some (set, after) => setBody fuel negated pending (.union members set) after
      | none => none

/-- A bracket from behind its opening. -/
def bracket (fuel : Nat) (cs : List Char) : Option (CharClass × List Char) :=
  let (negated, members, body) := setStart cs
  setBody fuel negated none members body

/-! ## Groups and counts -/

/-- The letters that are flags. -/
def isFlag (c : Char) : Bool :=
  c == 'i' || c == 'm' || c == 's' || c == 'U' || c == 'u' || c == 'x' || c == 'R'

/-- Flags to switch on and, after a hyphen, to switch off; each at most once, and a hyphen is
followed by one. -/
def readFlags (cs : List Char) : Option (List Char × List Char) :=
  let on := cs.takeWhile (· != '-')
  let off := (cs.dropWhile (· != '-')).drop 1
  let hyphen := cs.contains '-'
  if (on ++ off).all isFlag && (on ++ off).Nodup && (!hyphen || !off.isEmpty) then some (on, off)
  else none

/-- The name of a group: a letter or underscore, then letters, digits and a few marks. -/
def isGroupName (name : List Char) : Bool :=
  match name with
  | [] => false
  | c :: rest =>
    (c == '_' || c.isAlpha || (0x80 ≤ c.toNat && Text.isWordChar c)) &&
      rest.all (fun d => d == '_' || d == '.' || d == '[' || d == ']' || Text.isWordChar d)

/-- The token of a group from behind its opening parenthesis. -/
def group (cs : List Char) : Option (Token × List Char) :=
  match cs with
  | '?' :: 'P' :: '<' :: rest => named rest
  | '?' :: '<' :: c :: rest => if c == '=' || c == '!' then none else named (c :: rest)
  | '?' :: rest =>
    let letters := rest.takeWhile (fun c => c != ':' && c != ')')
    match rest.drop letters.length with
    | ':' :: after => (readFlags letters).map (fun (on, off) => (.opening none on off, after))
    | ')' :: after =>
      if letters.isEmpty then none
      else (readFlags letters).map (fun (on, off) => (.switch on off, after))
    | _ => none
  | _ => some (.opening none [] [], cs)
where
  /-- A group with a name. -/
  named (cs : List Char) : Option (Token × List Char) := do
    let (name, rest) ← upTo '>' cs
    if isGroupName name then some (.opening (some (String.ofList name)) [] [], rest) else none

/-- A count in decimal digits, blanks around it dropped; it has to fit in 32 bits. -/
def count (cs : List Char) : Option (Nat × List Char) :=
  let digits := (Text.trimLeft cs).takeWhile Char.isDigit
  let n := Text.decimalNumber digits
  if digits.isEmpty || Nat.pow 2 32 ≤ n then none
  else some (n, Text.trimLeft ((Text.trimLeft cs).drop digits.length))

/-- The bounds of a repetition from behind its opening brace. -/
def bounds (cs : List Char) : Option (Token × List Char) := do
  let (least, rest) ← count cs
  match rest with
  | '\x7d' :: after => some (.repetition least (some least), after)
  | ',' :: '\x7d' :: after => some (.repetition least none, after)
  | ',' :: more =>
    let (most, final) ← count more
    match final with
    | '\x7d' :: after => if least ≤ most then some (.repetition least (some most), after) else none
    | _ => none
  | _ => none

/-- A repetition may be followed by a question mark, which only changes its greed. -/
def dropGreed : List Char → List Char
  | '?' :: rest => rest
  | cs => cs

/-- The first token of a text that is not empty. -/
def token (fuel : Nat) (cs : List Char) : Option (Token × List Char) :=
  match cs with
  | [] => none
  | '.' :: rest => some (.dot, rest)
  | '^' :: rest => some (.caret, rest)
  | '$' :: rest => some (.dollar, rest)
  | '|' :: rest => some (.bar, rest)
  | '(' :: rest => group rest
  | ')' :: rest => some (.closing, rest)
  | '*' :: rest => some (.repetition 0 none, dropGreed rest)
  | '+' :: rest => some (.repetition 1 none, dropGreed rest)
  | '?' :: rest => some (.repetition 0 (some 1), dropGreed rest)
  | '\x7b' :: rest => (bounds rest).map (fun (t, after) => (t, dropGreed after))
  | '[' :: rest => (bracket fuel rest).map (fun (set, after) => (.set set, after))
  | '\\' :: rest => escape rest
  | c :: rest => some (.char c true, rest)

/-- The tokens of a text. Each token takes at least one character, so the length of the text is fuel
enough. -/
def tokens : Nat → List Char → Option (List Token)
  | _, [] => some []
  | 0, _ :: _ => none
  | fuel + 1, cs =>
    match token (fuel + 1) cs with
    | some (t, rest) => (tokens fuel rest).map (t :: ·)
    | none => none

/-! ## From tokens to a pattern -/

/-- A group under construction. -/
structure Frame where
  /-- The alternatives that are finished, last one first. -/
  done : List Pattern := []
  /-- The current alternative, last part first; a flag switch is `none`, since it cannot be repeated. -/
  parts : List (Option Pattern) := []
  /-- The flags of the group around it. -/
  outer : Flags := {}
deriving Inhabited

namespace Frame

/-- The current alternative. -/
def current (frame : Frame) : Pattern :=
  sequence (frame.parts.reverse.filterMap id)

/-- The whole group. -/
def close (frame : Frame) : Pattern :=
  choice (frame.current :: frame.done).reverse

/-- Adds a part to the current alternative. -/
def push (frame : Frame) (p : Pattern) : Frame :=
  { frame with parts := some p :: frame.parts }

end Frame

/-- Switches flags on and off. -/
def Flags.switch (flags : Flags) (on off : List Char) : Flags :=
  let value (c : Char) (old : Bool) : Bool :=
    if on.contains c then true else if off.contains c then false else old
  { ignoreCase := value 'i' flags.ignoreCase, multiLine := value 'm' flags.multiLine,
    dotAll := value 's' flags.dotAll, verbose := value 'x' flags.verbose }

/-- A set under the flags. -/
def Flags.one (flags : Flags) (set : CharClass) : Pattern :=
  .one (if flags.ignoreCase then set.foldCase else set)

/-- Reads the tokens with the innermost group, the groups around it, the flags, the names in use, and
whether a comment is being skipped. -/
def assemble : List Token → Frame → List Frame → Flags → List String → Bool → Option Pattern
  | [], frame, outer, _, _, _ => if outer.isEmpty then some frame.close else none
  | t :: rest, frame, outer, flags, names, comment =>
    if comment then
      match t with
      | .char c _ => assemble rest frame outer flags names (c != '\n')
      | _ => assemble rest frame outer flags names true
    else
      match t with
      | .char c plain =>
        if flags.verbose && plain && Text.isBlank c then assemble rest frame outer flags names false
        else if flags.verbose && plain && c == '#' then assemble rest frame outer flags names true
        else assemble rest (frame.push (flags.one (.single c))) outer flags names false
      | .set set => assemble rest (frame.push (flags.one set)) outer flags names false
      | .dot =>
        let set := if flags.dotAll then CharClass.all else CharClass.notNewline
        assemble rest (frame.push (.one set)) outer flags names false
      | .caret =>
        let assertion := if flags.multiLine then Assertion.lineStart else Assertion.textStart
        assemble rest (frame.push (.check assertion)) outer flags names false
      | .dollar =>
        let assertion := if flags.multiLine then Assertion.lineEnd else Assertion.textEnd
        assemble rest (frame.push (.check assertion)) outer flags names false
      | .check assertion => assemble rest (frame.push (.check assertion)) outer flags names false
      | .bar =>
        assemble rest { frame with done := frame.current :: frame.done, parts := [] } outer flags
          names false
      | .opening name on off =>
        match name with
        | some n =>
          if names.contains n then none
          else assemble rest { outer := flags } (frame :: outer) flags (n :: names) false
        | none => assemble rest { outer := flags } (frame :: outer) (flags.switch on off) names false
      | .closing =>
        match outer with
        | [] => none
        | around :: others => assemble rest (around.push frame.close) others frame.outer names false
      | .switch on off =>
        assemble rest { frame with parts := none :: frame.parts } outer (flags.switch on off) names
          false
      | .repetition least most =>
        match frame.parts with
        | some p :: before =>
          assemble rest { frame with parts := some (.many p least most) :: before } outer flags names
            false
        | _ => none

/-- The pattern that a text writes, if it writes one. -/
def parse? (text : String) : Option Pattern :=
  let cs := text.toList
  match tokens cs.length cs with
  | some ts => assemble ts {} [] {} [] false
  | none => none

/-- Reads patterns: a text passes if the pattern occurs in it. -/
def reader (source : String) : Option (String → Bool) :=
  (parse? source).map (fun pattern text => pattern.occursIn text.toList)

end Pattern

end ClassAtlas
