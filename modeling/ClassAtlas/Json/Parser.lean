import ClassAtlas.Json.Basic

/-!
# Reading JSON

The grammar of JSON, with nothing left over at the end. Strings are checked but not decoded.
-/

namespace ClassAtlas

namespace Json

/-- The blanks of JSON. -/
def isSpace (c : Char) : Bool :=
  c == ' ' || c == '\n' || c == '\t' || c == '\r'

/-- Without the blanks in front. -/
def skip (cs : List Char) : List Char :=
  cs.dropWhile isSpace

/-- Four hexadecimal digits. -/
def isCode (a b c d : Char) : Bool :=
  (code? a b c d).isSome

/-- The spelling of a string from behind its opening quote, and the text after its closing quote. -/
def scanString : List Char → Option (List Char × List Char)
  | [] => none
  | '"' :: rest => some ([], rest)
  | '\\' :: 'u' :: a :: b :: c :: d :: rest =>
    if isCode a b c d then
      (scanString rest).map (fun (body, after) => ('\\' :: 'u' :: a :: b :: c :: d :: body, after))
    else none
  | '\\' :: c :: rest =>
    if (shortEscape? c).isSome then
      (scanString rest).map (fun (body, after) => ('\\' :: c :: body, after))
    else none
  | c :: rest =>
    if c = '\\' ∨ c.toNat < 0x20 then none
    else (scanString rest).map (fun (body, after) => (c :: body, after))

/-- One or more digits. -/
def scanDigits (cs : List Char) : Option (List Char × List Char) :=
  match cs.takeWhile Char.isDigit with
  | [] => none
  | digits => some (digits, cs.dropWhile Char.isDigit)

/-- The digits before the point: a zero alone, or digits that do not start with one. -/
def scanWhole (cs : List Char) : Option (List Char × List Char) :=
  match cs with
  | '0' :: rest => some (['0'], rest)
  | _ => scanDigits cs

/-- A point and the digits after it, if there is one. -/
def scanFraction (cs : List Char) : Option (List Char × List Char) :=
  match cs with
  | '.' :: rest => (scanDigits rest).map (fun (digits, after) => ('.' :: digits, after))
  | _ => some ([], cs)

/-- The sign of an exponent, if there is one. -/
def scanSign (cs : List Char) : List Char × List Char :=
  match cs with
  | '+' :: rest => (['+'], rest)
  | '-' :: rest => (['-'], rest)
  | _ => ([], cs)

/-- An exponent, if there is one. -/
def scanExponent (cs : List Char) : Option (List Char × List Char) :=
  match cs with
  | c :: rest =>
    if c = 'e' ∨ c = 'E' then
      let (sign, digits) := scanSign rest
      (scanDigits digits).map (fun (digits, after) => (c :: sign ++ digits, after))
    else some ([], cs)
  | [] => some ([], [])

/-- A number without its sign. -/
def scanUnsigned (cs : List Char) : Option (List Char × List Char) :=
  match scanWhole cs with
  | none => none
  | some (whole, afterWhole) =>
    match scanFraction afterWhole with
    | none => none
    | some (fraction, afterFraction) =>
      match scanExponent afterFraction with
      | none => none
      | some (exponent, rest) => some (whole ++ fraction ++ exponent, rest)

/-- A number. -/
def scanNumber (cs : List Char) : Option (List Char × List Char) :=
  match cs with
  | '-' :: rest => (scanUnsigned rest).map (fun (digits, after) => ('-' :: digits, after))
  | _ => scanUnsigned cs

mutual

/-- A value at the start of a text, and the text after it. -/
def scanValue : Nat → List Char → Option (Json × List Char)
  | 0, _ => none
  | fuel + 1, cs =>
    match skip cs with
    | 'n' :: 'u' :: 'l' :: 'l' :: rest => some (.null, rest)
    | 't' :: 'r' :: 'u' :: 'e' :: rest => some (.bool true, rest)
    | 'f' :: 'a' :: 'l' :: 's' :: 'e' :: rest => some (.bool false, rest)
    | '"' :: rest => (scanString rest).map (fun (written, after) => (.string written, after))
    | '[' :: rest =>
      match skip rest with
      | ']' :: after => some (.array [], after)
      | body => (scanElements fuel body).map (fun (elements, after) => (.array elements, after))
    | '\x7b' :: rest =>
      match skip rest with
      | '\x7d' :: after => some (.object [], after)
      | body => (scanMembers fuel body).map (fun (members, after) => (.object members, after))
    | body => (scanNumber body).map (fun (written, after) => (.number written, after))

/-- The elements of an array that is not empty, up to its end. -/
def scanElements : Nat → List Char → Option (List Json × List Char)
  | 0, _ => none
  | fuel + 1, cs =>
    match scanValue fuel cs with
    | none => none
    | some (first, rest) =>
      match skip rest with
      | ']' :: after => some ([first], after)
      | ',' :: more => (scanElements fuel more).map (fun (others, after) => (first :: others, after))
      | _ => none

/-- The members of an object that is not empty, up to its end. -/
def scanMembers : Nat → List Char → Option (List (List Char × Json) × List Char)
  | 0, _ => none
  | fuel + 1, cs =>
    match skip cs with
    | '"' :: rest =>
      match scanString rest with
      | none => none
      | some (key, afterKey) =>
        match skip afterKey with
        | ':' :: body =>
          match scanValue fuel body with
          | none => none
          | some (first, afterValue) =>
            match skip afterValue with
            | '\x7d' :: after => some ([(key, first)], after)
            | ',' :: more =>
              (scanMembers fuel more).map (fun (others, after) => ((key, first) :: others, after))
            | _ => none
        | _ => none
    | _ => none

end

/-- The value that a text writes, if it writes one and nothing else. Every step takes a character, and
at most two steps start at the same one, so twice the length is fuel enough. -/
def parse? (text : String) : Option Json :=
  let cs := text.toList
  match scanValue (2 * cs.length + 2) cs with
  | none => none
  | some (value, rest) => if (skip rest).isEmpty then some value else none

end Json

end ClassAtlas
