/-!
# Kinds and relations

What a node of the graph is, and how two nodes can be related. Each relation is one directed edge;
its inverse (children, subclasses, includers, extenders) is read from the same edge.
-/

namespace ClassAtlas

/-- A node is a class or a module. -/
inductive Kind where
  | classNode
  | moduleNode
deriving DecidableEq, Repr, Inhabited

namespace Kind

/-- The word for a kind. -/
def display : Kind → String
  | .classNode => "class"
  | .moduleNode => "module"

end Kind

/-- The relations between two nodes, read from source to target. -/
inductive Relation where
  /-- The source encloses the target. -/
  | containment
  /-- The source derives from the target. -/
  | inheritance
  /-- The source includes the target. -/
  | inclusion
  /-- The source is extended by the target. -/
  | extension
deriving DecidableEq, Repr, Inhabited

namespace Relation

/-- All relations, in the order in which they are drawn and written. -/
def all : List Relation :=
  [.containment, .inheritance, .inclusion, .extension]

/-- The word for a relation. -/
def display : Relation → String
  | .containment => "containment"
  | .inheritance => "inheritance"
  | .inclusion => "inclusion"
  | .extension => "extension"

end Relation

/-- The two statements that mix a module into a class or module. -/
inductive Mixin where
  | including
  | extending
deriving DecidableEq, Repr, Inhabited

namespace Mixin

/-- The mixin statement that a method name spells, if any. -/
def ofMethod? : String → Option Mixin
  | "include" => some .including
  | "extend" => some .extending
  | _ => none

/-- The method name of a mixin statement. -/
def method : Mixin → String
  | .including => "include"
  | .extending => "extend"

/-- The word for a mixin statement in the journal. -/
def label : Mixin → String
  | .including => "Include"
  | .extending => "Extend"

/-- The relation that a mixin statement records. -/
def relation : Mixin → Relation
  | .including => .inclusion
  | .extending => .extension

theorem ofMethod?_method (m : Mixin) : ofMethod? m.method = some m := by
  cases m <;> rfl

end Mixin

end ClassAtlas
