import ClassAtlas.Text.Digit

/-!
# JSON values

A JSON value as it is written. Strings and keys keep their spelling, with escapes, and are decoded when
a text is asked for: an escape can name half of a surrogate pair, which is no text, and that matters
only where a text is needed.
-/

namespace ClassAtlas

/-- A JSON value. -/
inductive Json where
  | null
  | bool (value : Bool)
  /-- A number as written. -/
  | number (written : List Char)
  /-- A string as written between its quotes. -/
  | string (written : List Char)
  | array (elements : List Json)
  /-- Members in order; keys as written between their quotes. -/
  | object (members : List (List Char × Json))
deriving Inhabited

namespace Json

/-! ## Escapes in strings -/

/-- The spelling of one character: short escapes where there are any, numbers for other controls. -/
def escapeChar (c : Char) : List Char :=
  if c = '"' then ['\\', '"']
  else if c = '\\' then ['\\', '\\']
  else if c = '\x08' then ['\\', 'b']
  else if c = '\x0c' then ['\\', 'f']
  else if c = '\n' then ['\\', 'n']
  else if c = '\r' then ['\\', 'r']
  else if c = '\t' then ['\\', 't']
  else if c.toNat < 0x20 then
    ['\\', 'u', '0', '0', Nat.digitChar (c.toNat / 16), Nat.digitChar (c.toNat % 16)]
  else [c]

/-- The spelling of a text. -/
def encode (text : List Char) : List Char :=
  text.flatMap escapeChar

/-- The character that a short escape names. -/
def shortEscape? : Char → Option Char
  | '"' => some '"'
  | '\\' => some '\\'
  | '/' => some '/'
  | 'b' => some '\x08'
  | 'f' => some '\x0c'
  | 'n' => some '\n'
  | 'r' => some '\r'
  | 't' => some '\t'
  | _ => none

/-- The number written by four hexadecimal digits. -/
def code? (a b c d : Char) : Option Nat :=
  Text.hexNumber? [a, b, c, d]

/-- The first half of a surrogate pair. -/
def isLeading (n : Nat) : Bool :=
  0xD800 ≤ n && n < 0xDC00

/-- The second half of a surrogate pair. -/
def isTrailing (n : Nat) : Bool :=
  0xDC00 ≤ n && n < 0xE000

/-- The text that a spelling stands for; `none` if it is no spelling of a text. -/
def decode : List Char → Option (List Char)
  | [] => some []
  | '\\' :: 'u' :: a :: b :: c :: d :: '\\' :: 'u' :: e :: f :: g :: h :: rest =>
    match code? a b c d with
    | none => none
    | some n =>
      if isLeading n then
        match code? e f g h with
        | none => none
        | some m =>
          if isTrailing m then
            (decode rest).map (Char.ofNat (0x10000 + (n - 0xD800) * 0x400 + (m - 0xDC00)) :: ·)
          else none
      else
        match Text.charOfCode? n with
        | none => none
        | some x => (decode ('\\' :: 'u' :: e :: f :: g :: h :: rest)).map (x :: ·)
  | '\\' :: 'u' :: a :: b :: c :: d :: rest =>
    match (code? a b c d).bind Text.charOfCode? with
    | none => none
    | some x => (decode rest).map (x :: ·)
  | '\\' :: c :: rest =>
    match shortEscape? c with
    | none => none
    | some x => (decode rest).map (x :: ·)
  | c :: rest =>
    if c = '\\' ∨ c = '"' ∨ c.toNat < 0x20 then none else (decode rest).map (c :: ·)

/-- A string value with a given text. -/
def ofText (text : String) : Json :=
  .string (encode text.toList)

/-- An object with given keys. -/
def ofMembers (members : List (String × Json)) : Json :=
  .object (members.map (fun (key, value) => (encode key.toList, value)))

/-! ## Reading values -/

/-- The text of a string value. -/
def text? : Json → Option String
  | .string written => (decode written).map String.ofList
  | _ => none

/-- The truth value of a boolean. -/
def bool? : Json → Option Bool
  | .bool value => some value
  | _ => none

/-- The elements of an array. -/
def elements? : Json → Option (List Json)
  | .array elements => some elements
  | _ => none

/-- The members of an object, keys decoded. -/
def members? : Json → Option (List (String × Json))
  | .object members =>
    members.mapM (fun (key, value) => (decode key).map (fun text => (String.ofList text, value)))
  | _ => none

/-- The value of a field, which stands at most once. -/
def field? (entries : List (String × Json)) (name : String) : Option (Option Json) :=
  match entries.filter (fun entry => entry.1 == name) with
  | [] => some none
  | [entry] => some (some entry.2)
  | _ => none

/-- The values of named fields. A record is an object, in which other keys are ignored and a field
stands at most once, or an array of the fields in order, of which the last may be missing. -/
def record? (names : List String) : Json → Option (List (Option Json))
  | .object members =>
    match (Json.object members).members? with
    | none => none
    | some entries => names.mapM (field? entries)
  | .array elements =>
    if elements.length ≤ names.length then
      some (elements.map some ++ List.replicate (names.length - elements.length) none)
    else none
  | _ => none

end Json

end ClassAtlas
