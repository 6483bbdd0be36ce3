import ClassAtlas.Network.View
import ClassAtlas.Text.Quoted

/-!
# Matchers

The test of a rule: one path, a pattern that occurs in the text of a path, or any property of a node
in its network.

How patterns are written is left open here: whoever builds matchers brings a reader of patterns.
-/

namespace ClassAtlas

/-- A reader of patterns: what a pattern asks of a text, and `none` if what is written is no pattern. -/
abbrev PatternReader := String → Option (String → Bool)

/-- A test for nodes. -/
inductive Matcher where
  /-- The node with exactly this path. -/
  | path (path : Path)
  /-- The nodes in whose path the pattern occurs; `source` is the pattern as written. -/
  | pattern (source : String) (occurs : String → Bool)
  /-- The nodes with a property, which may read relations and styles. -/
  | predicate (holds : Network → NodeId → Bool)

namespace Matcher

/-- A node passes the test. -/
def accepts (m : Matcher) (net : Network) (id : NodeId) : Bool :=
  match m with
  | .path wanted => net.pathOf id == wanted
  | .pattern _ occurs => occurs (net.pathOf id).display
  | .predicate holds => holds net id

/-- A short description. -/
def describe : Matcher → String
  | .path wanted => "Path(" ++ Text.quoted wanted.display ++ ")"
  | .pattern source _ => "Pattern(" ++ Text.quoted source ++ ")"
  | .predicate _ => "Predicate(..)"

end Matcher

end ClassAtlas
