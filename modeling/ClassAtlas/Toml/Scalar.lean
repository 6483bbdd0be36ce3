import ClassAtlas.Datum
import ClassAtlas.Text.Digit

/-!
# Scalars of TOML

Strings, numbers, truth values and date-times. Each scanner takes a value from the front of a text and
gives it with the text that is left.
-/

namespace ClassAtlas.Toml

/-- The result of a scanner: a value and the text after it. -/
abbrev Scanned (α : Type) := Option (α × List Char)

/-! ## Characters -/

/-- A character that may stand in a comment: no control other than the tab. -/
def isTextChar (c : Char) : Bool :=
  c == '\t' || (0x20 ≤ c.toNat && c.toNat != 0x7F)

/-- A line end at the front of a text. -/
def newline? : List Char → Option (List Char)
  | '\n' :: rest => some rest
  | '\r' :: '\n' :: rest => some rest
  | _ => none

/-- Without the blanks in front; a line end is none. -/
def skipSpace (cs : List Char) : List Char :=
  cs.dropWhile (fun c => c == ' ' || c == '\t')

/-- Without the blanks and line ends in front. -/
def skipLines : List Char → List Char
  | ' ' :: rest => skipLines rest
  | '\t' :: rest => skipLines rest
  | '\n' :: rest => skipLines rest
  | '\r' :: '\n' :: rest => skipLines rest
  | cs => cs

/-! ## Strings -/

/-- The character of a short escape. -/
def shortEscape? : Char → Option Char
  | 'b' => some '\x08'
  | 't' => some '\t'
  | 'n' => some '\n'
  | 'f' => some '\x0c'
  | 'r' => some '\r'
  | '"' => some '"'
  | '\\' => some '\\'
  | _ => none

/-- The escape after a backslash: a short one, or a character by its number. -/
def escape : List Char → Scanned Char
  | 'u' :: a :: b :: c :: d :: rest =>
    ((Text.hexNumber? [a, b, c, d]).bind Text.charOfCode?).map (·, rest)
  | 'U' :: a :: b :: c :: d :: e :: f :: g :: h :: rest =>
    ((Text.hexNumber? [a, b, c, d, e, f, g, h]).bind Text.charOfCode?).map (·, rest)
  | c :: rest => (shortEscape? c).map (·, rest)
  | [] => none

/-- A string from behind its quote, with escapes, on one line. -/
def basicString : Nat → List Char → Scanned (List Char)
  | 0, _ => none
  | fuel + 1, cs =>
    match cs with
    | [] => none
    | '"' :: rest => some ([], rest)
    | '\\' :: rest =>
      match escape rest with
      | none => none
      | some (c, after) => (basicString fuel after).map (fun (body, final) => (c :: body, final))
    | c :: rest =>
      if isTextChar c then (basicString fuel rest).map (fun (body, final) => (c :: body, final))
      else none

/-- A string from behind its apostrophe, as it stands, on one line. -/
def literalString : List Char → Scanned (List Char)
  | [] => none
  | '\'' :: rest => some ([], rest)
  | c :: rest =>
    if isTextChar c then (literalString rest).map (fun (body, final) => (c :: body, final)) else none

/-- How many times a character stands at the front. -/
def runLength (c : Char) (cs : List Char) : Nat :=
  (cs.takeWhile (· == c)).length

/-- The end of a string over several lines: three marks, with up to two more that belong to it. -/
def closing (mark : Char) (cs : List Char) : Scanned (List Char) :=
  let count := runLength mark cs
  if 3 ≤ count ∧ count ≤ 5 then some (List.replicate (count - 3) mark, cs.drop count) else none

/-- A backslash at the end of a line: it is dropped with all blanks and line ends after it. -/
def continuation? (cs : List Char) : Option (List Char) :=
  (newline? (skipSpace cs)).map skipLines

/-- A string over several lines from behind its three quotes, with escapes. -/
def basicLines : Nat → List Char → Scanned (List Char)
  | 0, _ => none
  | fuel + 1, cs =>
    match cs with
    | [] => none
    | '"' :: rest =>
      if 3 ≤ runLength '"' cs then closing '"' cs
      else (basicLines fuel rest).map (fun (body, final) => ('"' :: body, final))
    | '\\' :: rest =>
      match continuation? rest with
      | some after => basicLines fuel after
      | none =>
        match escape rest with
        | none => none
        | some (c, after) => (basicLines fuel after).map (fun (body, final) => (c :: body, final))
    | c :: rest =>
      match newline? cs with
      | some after => (basicLines fuel after).map (fun (body, final) => ('\n' :: body, final))
      | none =>
        if isTextChar c then (basicLines fuel rest).map (fun (body, final) => (c :: body, final))
        else none

/-- A string over several lines from behind its three apostrophes, as it stands. -/
def literalLines : Nat → List Char → Scanned (List Char)
  | 0, _ => none
  | fuel + 1, cs =>
    match cs with
    | [] => none
    | '\'' :: rest =>
      if 3 ≤ runLength '\'' cs then closing '\'' cs
      else (literalLines fuel rest).map (fun (body, final) => ('\'' :: body, final))
    | c :: rest =>
      match newline? cs with
      | some after => (literalLines fuel after).map (fun (body, final) => ('\n' :: body, final))
      | none =>
        if isTextChar c then (literalLines fuel rest).map (fun (body, final) => (c :: body, final))
        else none

/-- A line end right after the opening marks is dropped. -/
def dropFirstNewline (cs : List Char) : List Char :=
  (newline? cs).getD cs

/-- A string of any form. -/
def string (cs : List Char) : Scanned (List Char) :=
  match cs with
  | '"' :: '"' :: '"' :: rest => basicLines (rest.length + 1) (dropFirstNewline rest)
  | '"' :: rest => basicString (rest.length + 1) rest
  | '\'' :: '\'' :: '\'' :: rest => literalLines (rest.length + 1) (dropFirstNewline rest)
  | '\'' :: rest => literalString rest
  | _ => none

/-! ## Numbers -/

/-- Digits of a base with single underscores between them; gives them without the underscores. -/
def digits? (isDigit : Char → Bool) : List Char → Option (List Char)
  | [] => none
  | [c] => if isDigit c then some [c] else none
  | c :: '_' :: rest => if isDigit c then (digits? isDigit rest).map (c :: ·) else none
  | c :: rest => if isDigit c then (digits? isDigit rest).map (c :: ·) else none

/-- The sign in front of a number, and the rest. -/
def splitSign : List Char → Bool × List Char
  | '-' :: rest => (true, rest)
  | '+' :: rest => (false, rest)
  | cs => (false, cs)

/-- The digits of a whole number: a zero alone, or digits that do not start with one. -/
def whole? (cs : List Char) : Option (List Char) :=
  match digits? Char.isDigit cs with
  | some ['0'] => some ['0']
  | some ('0' :: _) => none
  | other => other

/-- A digit of base eight. -/
def isOctal (c : Char) : Bool := '0' ≤ c && c ≤ '7'

/-- A digit of base two. -/
def isBinary (c : Char) : Bool := c == '0' || c == '1'

/-- A hexadecimal digit. -/
def isHex (c : Char) : Bool := (Text.hexValue? c).isSome

/-- The number that digits write in a base. -/
def inBase (base : Nat) (digits : List Char) : Nat :=
  digits.foldl (fun n c => base * n + (Text.hexValue? c).getD 0) 0

/-- The first number above those of 64 bits with sign. -/
def signedLimit : Nat := Nat.pow 2 63

/-- A whole number of 64 bits with sign. -/
def isInteger (cs : List Char) : Bool :=
  match cs with
  | '0' :: 'x' :: rest => (digits? isHex rest).any (fun ds => inBase 16 ds < signedLimit)
  | '0' :: 'o' :: rest => (digits? isOctal rest).any (fun ds => inBase 8 ds < signedLimit)
  | '0' :: 'b' :: rest => (digits? isBinary rest).any (fun ds => inBase 2 ds < signedLimit)
  | _ =>
    let (negative, rest) := splitSign cs
    (whole? rest).any (fun ds =>
      inBase 10 ds < signedLimit || (negative && inBase 10 ds == signedLimit))

/-- The value `digits · 10 ^ exponent` rounds to no finite number of double precision: it reaches
halfway from the largest one to the next power of two. -/
def overflows (digits : List Char) (exponent : Int) : Bool :=
  let n := inBase 10 digits
  let size : Int := (toString n).length + exponent
  let limit := Nat.pow 2 1024 - Nat.pow 2 970
  if n = 0 ∨ size ≤ 308 then false
  else if 309 < size then true
  else if 0 ≤ exponent then limit ≤ n * Nat.pow 10 exponent.toNat
  else limit * Nat.pow 10 (-exponent).toNat ≤ n

/-- The exponent of a number, if there is one: a sign and digits. -/
def exponent? (cs : List Char) : Option Int :=
  let (negative, rest) := splitSign cs
  (digits? Char.isDigit rest).map (fun ds =>
    if negative then -(inBase 10 ds : Int) else (inBase 10 ds : Int))

/-- A fraction or a number with an exponent, or infinity, or not a number. -/
def isFloat (cs : List Char) : Bool :=
  let (negative, body) := splitSign cs
  if body = "inf".toList ∨ body = "nan".toList then true
  else
    let mantissa := body.takeWhile (fun c => c != 'e' && c != 'E')
    let tail := body.drop mantissa.length
    let front := mantissa.takeWhile (· != '.')
    let back := mantissa.drop front.length
    let exponent := match tail with
      | [] => some 0
      | _ :: rest => exponent? rest
    let fraction := match back with
      | [] => some []
      | _ :: rest => digits? Char.isDigit rest
    match whole? front, fraction, exponent with
    | some a, some b, some e =>
      !(back.isEmpty && tail.isEmpty) && (negative || !overflows (a ++ b) (e - b.length))
    | _, _, _ => false

/-! ## Date-times -/

/-- The number written by exactly so many digits. -/
def fixed? (width : Nat) (cs : List Char) : Scanned Nat :=
  let ds := cs.take width
  if ds.length = width ∧ ds.all Char.isDigit then some (inBase 10 ds, cs.drop width) else none

/-- A number in decimal digits, filled up with zeros. -/
def padded (width n : Nat) : String :=
  let ds := toString n
  String.ofList (List.replicate (width - ds.length) '0') ++ ds

/-- The days of a month. -/
def daysIn (year month : Nat) : Nat :=
  if month = 2 then
    if year % 4 = 0 ∧ (year % 100 ≠ 0 ∨ year % 400 = 0) then 29 else 28
  else if month = 4 ∨ month = 6 ∨ month = 9 ∨ month = 11 then 30
  else 31

/-- A date, in the form `year-month-day`. -/
def date (cs : List Char) : Scanned String :=
  match fixed? 4 cs with
  | some (year, '-' :: rest) =>
    match fixed? 2 rest with
    | some (month, '-' :: more) =>
      match fixed? 2 more with
      | some (day, final) =>
        if 1 ≤ month ∧ month ≤ 12 ∧ 1 ≤ day ∧ day ≤ daysIn year month then
          some (padded 4 year ++ "-" ++ padded 2 month ++ "-" ++ padded 2 day, final)
        else none
      | none => none
    | _ => none
  | _ => none

/-- The digits of a fraction of a second: at most nine count, and trailing zeros do not. -/
def fractionText (digits : List Char) : String :=
  let kept := ((digits.take 9).reverse.dropWhile (· == '0')).reverse
  if kept.isEmpty then "" else "." ++ String.ofList kept

/-- The fraction of a second, if there is one. -/
def secondFraction (cs : List Char) : Scanned String :=
  match cs with
  | '.' :: rest =>
    match rest.takeWhile Char.isDigit with
    | [] => none
    | digits => some (fractionText digits, rest.drop digits.length)
  | _ => some ("", cs)

/-- A time of day, in the form `hour:minute:second`. -/
def time (cs : List Char) : Scanned String :=
  match fixed? 2 cs with
  | some (hour, ':' :: rest) =>
    match fixed? 2 rest with
    | some (minute, ':' :: more) =>
      match fixed? 2 more with
      | some (second, final) =>
        if hour ≤ 23 ∧ minute ≤ 59 ∧ second ≤ 60 then
          (secondFraction final).map (fun (fraction, after) =>
            (padded 2 hour ++ ":" ++ padded 2 minute ++ ":" ++ padded 2 second ++ fraction, after))
        else none
      | none => none
    | _ => none
  | _ => none

/-- The distance from universal time, if one is written. -/
def offset (cs : List Char) : Scanned String :=
  let zone (sign : Bool) (rest : List Char) : Scanned String :=
    match fixed? 2 rest with
    | some (hour, ':' :: more) =>
      match fixed? 2 more with
      | some (minute, final) =>
        if hour ≤ 23 ∧ minute ≤ 59 then
          let mark := if sign && 0 < hour + minute then "-" else "+"
          some (mark ++ padded 2 hour ++ ":" ++ padded 2 minute, final)
        else none
      | none => none
    | _ => none
  match cs with
  | 'Z' :: rest => some ("Z", rest)
  | 'z' :: rest => some ("Z", rest)
  | '+' :: rest => zone false rest
  | '-' :: rest => zone true rest
  | _ => some ("", cs)

/-- A date-time in its normal form: a date, a time, or both with an optional offset. -/
def dateTime? (cs : List Char) : Option String :=
  match date cs with
  | some (day, []) => some day
  | some (day, mark :: rest) =>
    if mark = 'T' ∨ mark = 't' ∨ mark = ' ' then
      match time rest with
      | some (clock, more) =>
        match offset more with
        | some (zone, []) => some (day ++ "T" ++ clock ++ zone)
        | _ => none
      | none => none
    else none
  | none =>
    match time cs with
    | some (clock, []) => some clock
    | _ => none

/-- The name under which a date-time stands where a table is read. -/
def dateTimeKey : String := "$__toml_private_datetime"

/-! ## Words -/

/-- A character of a number, a date-time or a truth value. -/
def isWordChar (c : Char) : Bool :=
  c.isAlphanum || c == '_' || c == '+' || c == '-' || c == '.' || c == ':'

/-- The word at the front of a text. A date and a time may be apart by one blank. -/
def word (cs : List Char) : List Char × List Char :=
  let first := cs.takeWhile isWordChar
  let rest := cs.drop first.length
  match rest with
  | ' ' :: more =>
    let second := more.takeWhile isWordChar
    if (date first).any (fun scanned => scanned.2.isEmpty) && (time second).isSome then
      (first ++ ' ' :: second, more.drop second.length)
    else (first, rest)
  | _ => (first, rest)

/-- The value of a word. A date-time is a table with one entry, its normal form. -/
def wordValue? (cs : List Char) : Option Datum :=
  if cs = "true".toList then some (.bool true)
  else if cs = "false".toList then some (.bool false)
  else
    match dateTime? cs with
    | some normal => some (.table [(dateTimeKey, .text normal)])
    | none => if isFloat cs || isInteger cs then some (.number (String.ofList cs)) else none

end ClassAtlas.Toml
