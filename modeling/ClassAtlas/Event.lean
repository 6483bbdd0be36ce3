import ClassAtlas.Reference
import ClassAtlas.Relation
import ClassAtlas.Text.Ordinal

/-!
# Events

What a build reports while it runs. An event is a cause with its particulars; `message` is the only
place that words it.
-/

namespace ClassAtlas

/-- The two walks over the declarations. -/
inductive Pass where
  /-- Declarations only: nodes and containment. -/
  | findNodes
  /-- Declarations again, with superclasses and mixins. -/
  | findRelations
deriving DecidableEq, Repr, Inhabited

namespace Pass

/-- The words for a pass. -/
def display : Pass → String
  | .findNodes => "find nodes"
  | .findRelations => "find relations"

end Pass

/-- How much an event matters. -/
inductive Level where
  | debug
  | info
  | warn
deriving DecidableEq, Repr, Inhabited

namespace Level

/-- The word for a level. -/
def display : Level → String
  | .debug => "DEBUG"
  | .info => "INFO"
  | .warn => "WARN"

end Level

/-- Something that a build reports. -/
inductive Event where
  | passBegun (pass : Pass)
  | scopesLeftOpen (count : Nat)
  | kindConflict (path : Path) (declared known : Kind)
  | superclassTooEarly (name : Reference)
  | mixinTooEarly (name : Reference)
  | superclassOfModule (path : Path) (superclass : Reference)
  | superclassUnresolved (superclass : Reference) (path : Path)
  | superclassNotClass (superclass path : Path)
  | superclassKept (path existing refused : Path)
  | extendSelfInClass (path : Path)
  | mixinUnresolved (mixin : Mixin) (target : Reference) (path : Path)
  | mixinNotModule (mixin : Mixin) (target : Path)
  | folding (stale path : Path)
  | alreadyStyled
  | pruned (path : Path)
  | roundPruned (count round : Nat)
  | passStarted (number : Nat) (pass : Pass)
  | sourcesFound (count : Nat) (root : String)
  | parsing (count : Nat) (root : String)
  | fileParsed (file : String) (items : Nat)
  | fileSkipped (file reason : String)
  | passDone (pass : Pass) (nodes edges : Nat)
  | applyingStyles
  | pruningNodes
deriving DecidableEq, Repr

namespace Event

/-- How much the event matters. -/
def level : Event → Level
  | .scopesLeftOpen _ => .warn
  | .kindConflict _ _ _ => .warn
  | .superclassOfModule _ _ => .warn
  | .superclassKept _ _ _ => .warn
  | .alreadyStyled => .warn
  | .fileSkipped _ _ => .warn
  | .roundPruned _ _ => .info
  | .passStarted _ _ => .info
  | .parsing _ _ => .info
  | .applyingStyles => .info
  | .pruningNodes => .info
  | _ => .debug

/-- The wording of the event. -/
def message : Event → String
  | .passBegun pass => "Beginning pass: " ++ pass.display
  | .scopesLeftOpen count => "Pass ended with " ++ toString count ++ " open scope(s)"
  | .kindConflict path declared known =>
    path.display ++ " declared as " ++ declared.display ++ " but already known as " ++ known.display
  | .superclassTooEarly name => "Ignoring superclass " ++ name.display ++ " outside the relations pass"
  | .mixinTooEarly name => "Ignoring mixin " ++ name.display ++ " outside the relations pass"
  | .superclassOfModule path superclass =>
    path.display ++ " is not a class, ignoring superclass " ++ superclass.display
  | .superclassUnresolved superclass path =>
    "Unresolved superclass " ++ superclass.display ++ " of " ++ path.display
  | .superclassNotClass superclass path =>
    "Superclass " ++ superclass.display ++ " of " ++ path.display ++ " is not a class"
  | .superclassKept path existing refused =>
    path.display ++ " already inherits from " ++ existing.display ++ ", ignoring " ++ refused.display
  | .extendSelfInClass path => "Ignoring `extend self` in class " ++ path.display
  | .mixinUnresolved mixin target path =>
    "Unresolved " ++ mixin.label ++ " target " ++ target.display ++ " in " ++ path.display
  | .mixinNotModule mixin target =>
    mixin.label ++ " target " ++ target.display ++ " is not a module"
  | .folding stale path => "Folding " ++ stale.display ++ " into " ++ path.display
  | .alreadyStyled => "Styles were already applied"
  | .pruned path => "  " ++ path.display
  | .roundPruned count round =>
    "  " ++ toString count ++ " nodes pruned on " ++ Text.ordinal round ++ " pass"
  | .passStarted number pass => Text.ordinal number ++ " pass: " ++ pass.display
  | .sourcesFound count root => toString count ++ " source files under " ++ root
  | .parsing count root => "Parsing " ++ toString count ++ " files under " ++ root
  | .fileParsed file items => file ++ ": " ++ toString items ++ " items"
  | .fileSkipped file reason => file ++ ": " ++ reason ++ ", skipped"
  | .passDone pass nodes edges =>
    "After " ++ pass.display ++ ": " ++ toString nodes ++ " nodes, " ++ toString edges ++ " edges"
  | .applyingStyles => "Applying styles"
  | .pruningNodes => "Pruning nodes"

/-- The event as one line: its level and its message. -/
def line (event : Event) : String :=
  event.level.display ++ " " ++ event.message

end Event

end ClassAtlas
