import ClassAtlas.Json.Parser
import ClassAtlas.SyntaxTree

/-!
# Reading syntax trees

A node is written as a JSON array of its kind, its flags, the part it plays (or null), its first byte, the
byte after it, and its children. The flags are the sum of 1 for a named node, 2 for an error and 4 for
something missing.
-/

namespace ClassAtlas

namespace SyntaxTree

/-- A number without sign, fraction or exponent. -/
def count? : Json → Option Nat
  | .number written => if written.all Char.isDigit then some (Text.decimalNumber written) else none
  | _ => none

/-- A part, or null for none. -/
def part? : Json → Option (Option String)
  | .null => some none
  | value => value.text?.map some

/-- A node with given children. -/
def assemble? (kind flags part start stop : Json) (children : List SyntaxTree) : Option SyntaxTree :=
  match kind.text?, count? flags, part? part, count? start, count? stop with
  | some kind, some flags, some part, some start, some stop =>
    some (.node kind (flags.testBit 0) (flags.testBit 1) (flags.testBit 2) part start stop children)
  | _, _, _, _, _ => none

mutual

/-- The tree that a value writes. -/
def ofJson? : Json → Option SyntaxTree
  | .array [kind, flags, part, start, stop, .array children] =>
    (ofElements? children).bind (assemble? kind flags part start stop)
  | _ => none

/-- The trees that values write. -/
def ofElements? : List Json → Option (List SyntaxTree)
  | [] => some []
  | value :: rest =>
    match ofJson? value, ofElements? rest with
    | some tree, some trees => some (tree :: trees)
    | _, _ => none

end

/-- The tree that a text writes. -/
def parse? (text : String) : Option SyntaxTree :=
  (Json.parse? text).bind ofJson?

end SyntaxTree

end ClassAtlas
