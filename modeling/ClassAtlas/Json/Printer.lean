import ClassAtlas.Json.Basic

/-!
# Writing JSON

One element or member per line, indented by two blanks per level; an empty array or object on one
line.
-/

namespace ClassAtlas

namespace Json

/-- The blanks in front of a line. -/
def indentation (level : Nat) : List Char :=
  List.replicate (2 * level) ' '

mutual

/-- The text of a value whose first line is already indented. -/
def pretty (level : Nat) : Json → List Char
  | .null => "null".toList
  | .bool true => "true".toList
  | .bool false => "false".toList
  | .number written => written
  | .string written => '"' :: written ++ ['"']
  | .array [] => "[]".toList
  | .array (first :: rest) =>
    "[\n".toList ++ indentation (level + 1) ++ pretty (level + 1) first ++
      prettyElements (level + 1) rest ++ ['\n'] ++ indentation level ++ [']']
  | .object [] => ['\x7b', '\x7d']
  | .object ((key, first) :: rest) =>
    ['\x7b', '\n'] ++ indentation (level + 1) ++ ('"' :: key ++ "\": ".toList) ++
      pretty (level + 1) first ++ prettyMembers (level + 1) rest ++ ['\n'] ++ indentation level ++
      ['\x7d']

/-- The elements after the first, each on a line of its own. -/
def prettyElements (level : Nat) : List Json → List Char
  | [] => []
  | first :: rest =>
    ",\n".toList ++ indentation level ++ pretty level first ++ prettyElements level rest

/-- The members after the first, each on a line of its own. -/
def prettyMembers (level : Nat) : List (List Char × Json) → List Char
  | [] => []
  | (key, first) :: rest =>
    ",\n".toList ++ indentation level ++ ('"' :: key ++ "\": ".toList) ++ pretty level first ++
      prettyMembers level rest

end

/-- The text of a value. -/
def render (value : Json) : String :=
  String.ofList (pretty 0 value)

end Json

end ClassAtlas
