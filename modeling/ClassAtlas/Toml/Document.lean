import ClassAtlas.Toml.Scalar

/-!
# TOML documents

A document is a list of lines: entries, table headers, blank lines and comments. Tables are built up
line by line. A table may be given by a header once; it may exist before that only because a deeper
header mentions it. A table that dotted keys make is closed to headers, and one that a header makes is
closed to dotted keys.
-/

namespace ClassAtlas.Toml

mutual

/-- What stands under a name while a document is read. -/
inductive Entry where
  | value (value : Datum)
  | table (table : Table)
  /-- An array of tables, last one first. -/
  | tables (tables : List Table)

/-- A table while a document is read. -/
inductive Table where
  /-- `implicit`: no header of its own so far; `dotted`: made by dotted keys. -/
  | mk (implicit dotted : Bool) (entries : List (String × Entry))

end

namespace Table

/-- No header of its own so far. -/
def implicit : Table → Bool
  | .mk implicit _ _ => implicit

/-- Made by dotted keys. -/
def dotted : Table → Bool
  | .mk _ dotted _ => dotted

/-- The entries, in order. -/
def entries : Table → List (String × Entry)
  | .mk _ _ entries => entries

/-- A table that a header opens. -/
def fresh : Table := .mk false false []

/-- Puts an entry under a name, in its old place if there is one. -/
def put (t : Table) (name : String) (entry : Entry) : Table :=
  let updated :=
    if t.entries.any (fun e => e.1 == name) then
      t.entries.map (fun e => if e.1 == name then (name, entry) else e)
    else t.entries ++ [(name, entry)]
  .mk t.implicit t.dotted updated

/-- Changes the table at the end of a path. Tables on the way are made if they are missing, and of an
array of tables the last one is meant. Dotted keys do not lead into a table that has a header. -/
def update (dotted : Bool) : List String → (Table → Option Table) → Table → Option Table
  | [], change, t => change t
  | name :: rest, change, t =>
    match t.entries.lookup name with
    | none =>
      (update dotted rest change (.mk true dotted [])).map (fun inner => t.put name (.table inner))
    | some (.value _) => none
    | some (.tables []) => none
    | some (.tables (last :: before)) =>
      (update dotted rest change last).map (fun inner => t.put name (.tables (inner :: before)))
    | some (.table inner) =>
      if dotted && !inner.implicit then none
      else (update dotted rest change inner).map (fun inner => t.put name (.table inner))

/-- Adds an entry under a dotted key. -/
def insert (path : List String) (name : String) (value : Datum) (t : Table) : Option Table :=
  t.update true path (fun inner =>
    if inner.dotted == path.isEmpty then none
    else if (inner.entries.lookup name).isSome then none
    else some (inner.put name (.value value)))

/-- Opens a table by its header. -/
def openTable (path : List String) (name : String) (t : Table) : Option Table :=
  t.update false path (fun parent =>
    match parent.entries.lookup name with
    | none => some (parent.put name (.table fresh))
    | some (.table inner) =>
      if inner.implicit && !inner.dotted then
        some (parent.put name (.table (.mk false false inner.entries)))
      else none
    | some _ => none)

/-- Adds a table to an array of tables by its header. -/
def pushTable (path : List String) (name : String) (t : Table) : Option Table :=
  t.update false path (fun parent =>
    match parent.entries.lookup name with
    | none => some (parent.put name (.tables [fresh]))
    | some (.tables tables) => some (parent.put name (.tables (fresh :: tables)))
    | some _ => none)

end Table

mutual

/-- The value of an entry. -/
def Entry.toDatum : Entry → Datum
  | .value value => value
  | .table table => table.toDatum
  | .tables tables => .list (tableList tables).reverse

/-- The value of a table. -/
def Table.toDatum : Table → Datum
  | .mk _ _ entries => .table (entryList entries)

/-- The values of tables. -/
def tableList : List Table → List Datum
  | [] => []
  | table :: rest => table.toDatum :: tableList rest

/-- The values of entries. -/
def entryList : List (String × Entry) → List (String × Datum)
  | [] => []
  | (name, entry) :: rest => (name, entry.toDatum) :: entryList rest

end

/-! ## Keys -/

/-- A character of a bare key. -/
def isKeyChar (c : Char) : Bool :=
  c.isAlphanum || c == '_' || c == '-'

/-- One part of a key: bare, or a string on one line. -/
def keyPart (cs : List Char) : Scanned String :=
  match cs with
  | '"' :: rest =>
    (basicString (rest.length + 1) rest).map (fun (body, after) => (String.ofList body, after))
  | '\'' :: rest => (literalString rest).map (fun (body, after) => (String.ofList body, after))
  | _ =>
    match cs.takeWhile isKeyChar with
    | [] => none
    | bare => some (String.ofList bare, cs.drop bare.length)

/-- A key: parts with points between them, blanks around them dropped. -/
def key : Nat → List Char → Scanned (List String)
  | 0, _ => none
  | fuel + 1, cs =>
    match keyPart (skipSpace cs) with
    | none => none
    | some (part, rest) =>
      match skipSpace rest with
      | '.' :: more => (key fuel more).map (fun (parts, after) => (part :: parts, after))
      | after => some ([part], after)

/-- The largest number of values inside one another, and of parts of a key. -/
def nestingLimit : Nat := 79

/-- A key split into the path of its table and its last part. -/
def splitKey (cs : List Char) : Scanned (List String × String) :=
  match key (cs.length + 1) cs with
  | none => none
  | some (parts, rest) =>
    if parts.length ≤ nestingLimit then some ((parts.dropLast, parts.getLastD ""), rest) else none

/-! ## Values -/

/-- Without blanks, line ends and comments in front; `none` at a control character in a comment. -/
def skipFiller : Nat → List Char → Option (List Char)
  | 0, cs => some cs
  | fuel + 1, cs =>
    match skipLines cs with
    | '#' :: rest =>
      match rest.dropWhile isTextChar with
      | [] => some []
      | after => if (newline? after).isSome then skipFiller fuel after else none
    | other => some other

mutual

/-- A value of any kind. `depth` bounds how many values may stand inside one another. -/
def value : Nat → Nat → List Char → Scanned Datum
  | 0, _, _ => none
  | fuel + 1, depth, cs =>
    match cs with
    | [] => none
    | '"' :: _ => (string cs).map (fun (body, rest) => (.text (String.ofList body), rest))
    | '\'' :: _ => (string cs).map (fun (body, rest) => (.text (String.ofList body), rest))
    | '[' :: rest =>
      match depth with
      | 0 => none
      | depth + 1 => (elements fuel depth rest).map (fun (values, after) => (.list values, after))
    | '\x7b' :: rest =>
      match depth with
      | 0 => none
      | depth + 1 =>
        match skipSpace rest with
        | '\x7d' :: after => some (.table [], after)
        | body =>
          (pairs fuel depth Table.fresh body).map (fun (table, after) => (table.toDatum, after))
    | _ =>
      let (first, rest) := word cs
      (wordValue? first).map (·, rest)

/-- The elements of an array up to its end. A comma may stand after the last one. -/
def elements : Nat → Nat → List Char → Scanned (List Datum)
  | 0, _, _ => none
  | fuel + 1, depth, cs =>
    match skipFiller cs.length cs with
    | none => none
    | some (']' :: rest) => some ([], rest)
    | some body =>
      match value fuel depth body with
      | none => none
      | some (first, rest) =>
        match skipFiller rest.length rest with
        | some (']' :: after) => some ([first], after)
        | some (',' :: more) =>
          (elements fuel depth more).map (fun (others, after) => (first :: others, after))
        | _ => none

/-- The entries of an inline table up to its end, all on one line, no comma after the last one. -/
def pairs : Nat → Nat → Table → List Char → Scanned Table
  | 0, _, _, _ => none
  | fuel + 1, depth, table, cs =>
    match splitKey cs with
    | some ((path, name), '=' :: rest) =>
      match value fuel depth (skipSpace rest) with
      | none => none
      | some (content, afterValue) =>
        match table.insert path name content with
        | none => none
        | some extended =>
          match skipSpace afterValue with
          | '\x7d' :: after => some (extended, after)
          | ',' :: more => pairs fuel depth extended more
          | _ => none
    | _ => none

end

/-! ## Lines -/

/-- A document while it is read: its tables, and the path of the table that a header opened last. -/
structure Reading where
  root : Table := .fresh
  current : List String := []

/-- The end of a line: blanks, a comment, and a line end or the end of the text. -/
def lineEnd (cs : List Char) : Option (List Char) :=
  let after := match skipSpace cs with
    | '#' :: rest => rest.dropWhile isTextChar
    | other => other
  match after with
  | [] => some []
  | _ => newline? after

/-- A header: the key between brackets. -/
def header (close : List Char) (cs : List Char) : Scanned (List String × String) :=
  match splitKey cs with
  | none => none
  | some (name, rest) =>
    if close.isPrefixOf rest then some (name, rest.drop close.length) else none

/-- One line: what it does to the document, and the lines after it. -/
def line (reading : Reading) (cs : List Char) : Option (Reading × List Char) :=
  match skipSpace cs with
  | [] => some (reading, [])
  | '#' :: rest => (lineEnd ('#' :: rest)).map (reading, ·)
  | '[' :: '[' :: rest =>
    match header "]]".toList rest with
    | none => none
    | some ((path, name), after) =>
      match reading.root.pushTable path name, lineEnd after with
      | some root, some next => some (⟨root, path ++ [name]⟩, next)
      | _, _ => none
  | '[' :: rest =>
    match header "]".toList rest with
    | none => none
    | some ((path, name), after) =>
      match reading.root.openTable path name, lineEnd after with
      | some root, some next => some (⟨root, path ++ [name]⟩, next)
      | _, _ => none
  | body =>
    match newline? body with
    | some next => some (reading, next)
    | none =>
      match splitKey body with
      | some ((path, name), '=' :: rest) =>
        match value (2 * rest.length + 2) nestingLimit (skipSpace rest) with
        | none => none
        | some (content, after) =>
          let extended := reading.root.update false reading.current (fun table =>
            table.insert path name content)
          match extended, lineEnd after with
          | some root, some next => some (⟨root, reading.current⟩, next)
          | _, _ => none
      | _ => none

/-- All lines. Each takes at least one character, so the length of the text is fuel enough. -/
def document : Nat → Reading → List Char → Option Table
  | _, reading, [] => some reading.root
  | 0, _, _ :: _ => none
  | fuel + 1, reading, cs =>
    match line reading cs with
    | none => none
    | some (next, rest) => document fuel next rest

/-- A byte order mark at the start of a text is dropped. -/
def dropMark : List Char → List Char
  | '\uFEFF' :: rest => rest
  | cs => cs

/-- The table that a text writes, if it is a document. -/
def parse? (text : String) : Option Datum :=
  let cs := dropMark text.toList
  (document cs.length {} cs).map Table.toDatum

end ClassAtlas.Toml
