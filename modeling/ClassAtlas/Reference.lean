import ClassAtlas.Path

/-!
# References

How source text names a class or module. A relative reference is looked up from the place where it
stands, an absolute one (written with a leading `::`) from the top level, and `self` names the
enclosing declaration.
-/

namespace ClassAtlas

/-- A constant as source text refers to it. -/
inductive Reference where
  /-- `Foo` or `Foo::Bar`, looked up from the enclosing scopes outwards. -/
  | relative (segments : List String)
  /-- `::Foo::Bar`, looked up at the top level. -/
  | absolute (segments : List String)
  /-- `self`, as in `extend self`. -/
  | selfRef
deriving DecidableEq, Repr, Inhabited

namespace Reference

/-- The reference written in a text, blanks around it dropped. -/
def parse (text : String) : Reference :=
  let trimmed := Text.trim text.toList
  if trimmed = "self".toList then .selfRef
  else if Path.separator.toList.isPrefixOf trimmed then .absolute (Path.segmentsOf trimmed)
  else .relative (Path.segmentsOf trimmed)

/-- The text of a reference. -/
def display : Reference → String
  | .relative segments => Path.separator.intercalate segments
  | .absolute segments => Path.separator ++ Path.separator.intercalate segments
  | .selfRef => "self"

/-- The segments; `self` has none. -/
def segments : Reference → List String
  | .relative segments => segments
  | .absolute segments => segments
  | .selfRef => []

/-- A qualified relative name: it may denote something outside the current nesting. -/
def isAmbiguous : Reference → Bool
  | .relative segments => decide (1 < segments.length)
  | _ => false

end Reference

end ClassAtlas
