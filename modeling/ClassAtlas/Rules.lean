import ClassAtlas.Matcher

/-!
# Rules

Rules as settings write them, before they are checked. A matcher gives exactly one of a path, a
pattern and a predicate; anything else is an error that names the rule. What a pattern means, and
whether it is one, is up to the reader of patterns.
-/

namespace ClassAtlas

/-- The properties that settings can ask for by name. -/
inductive PredicateSpec where
  /-- No container and no relation. -/
  | island
  /-- No container. -/
  | orphan
  | isClass
  | isModule
  /-- A module that extends itself. -/
  | singleton
  /-- Derives from the path, in any number of steps. -/
  | inheritsFrom (path : String)
  /-- Includes the module with the path. -/
  | includes (path : String)
  /-- Is extended by the module with the path. -/
  | extendedBy (path : String)
  /-- Has this last segment. -/
  | named (name : String)
deriving DecidableEq, Repr, Inhabited

namespace PredicateSpec

/-- The property itself. -/
def holds (spec : PredicateSpec) (net : Network) (id : NodeId) : Bool :=
  match spec with
  | .island => net.isIsland id
  | .orphan => net.isOrphan id
  | .isClass => net.kindOf? id == some .classNode
  | .isModule => net.kindOf? id == some .moduleNode
  | .singleton => (net.node? id).any (fun node => node.singleton)
  | .inheritsFrom path => net.inheritsFrom id (Path.parse path)
  | .includes path => net.includesPath id (Path.parse path)
  | .extendedBy path => net.extendsPath id (Path.parse path)
  | .named name => (net.pathOf id).name == name

end PredicateSpec

/-- Why a rule is refused. -/
inductive RuleError where
  /-- A matcher with none or several of its parts; `found` lists those given. -/
  | arity (rule : String) (found : List String)
  /-- The reader does not take the pattern. -/
  | invalidPattern (rule pattern : String)
  /-- The graph is being built, so no rule can be added. -/
  | frozen
deriving DecidableEq, Repr, Inhabited

namespace RuleError

/-- The wording of the error. -/
def message : RuleError → String
  | .arity rule found =>
    "rule " ++ rule ++ ": provide exactly one of path, pattern or predicate (found " ++
      (if found.isEmpty then "none" else ", ".intercalate found) ++ ")"
  | .invalidPattern rule pattern => "rule " ++ rule ++ ": invalid pattern `" ++ pattern ++ "`"
  | .frozen => "rules can only be registered before the graph is built"

/-- The matcher had none or several of its parts. -/
def isArity : RuleError → Bool
  | .arity _ _ => true
  | _ => false

/-- The rule that the error is about. -/
def rule? : RuleError → Option String
  | .arity rule _ => some rule
  | .invalidPattern rule _ => some rule
  | .frozen => none

end RuleError

/-- A matcher as written. Exactly one part has to be given. -/
structure MatcherSpec where
  path : Option String := none
  pattern : Option String := none
  predicate : Option PredicateSpec := none
deriving DecidableEq, Repr, Inhabited

namespace MatcherSpec

/-- The names of the parts that are given. -/
def given (spec : MatcherSpec) : List String :=
  (if spec.path.isSome then ["path"] else []) ++ (if spec.pattern.isSome then ["pattern"] else []) ++
    (if spec.predicate.isSome then ["predicate"] else [])

/-- The matcher that is written; `rule` names the rule in errors. -/
def build (spec : MatcherSpec) (reader : PatternReader) (rule : String) : Except RuleError Matcher :=
  match spec.path, spec.pattern, spec.predicate with
  | some path, none, none => .ok (.path (Path.parse path))
  | none, some source, none =>
    match reader source with
    | some occurs => .ok (.pattern source occurs)
    | none => .error (.invalidPattern rule source)
  | none, none, some predicate => .ok (.predicate predicate.holds)
  | _, _, _ => .error (.arity rule spec.given)

/-- The name of a rule that has none of its own: a pattern is named by its text. -/
def defaultRule (spec : MatcherSpec) : String :=
  match spec.path, spec.pattern, spec.predicate with
  | none, some source, none => "/" ++ source ++ "/"
  | _, _, _ => "rule"

end MatcherSpec

/-- A style rule as written: a matcher and the attributes for the nodes that it accepts. -/
structure StyleSpec where
  matcher : MatcherSpec := {}
  attributes : Style := .empty
deriving DecidableEq, Repr, Inhabited

/-- All rules for one graph, as written. -/
structure RuleSet where
  ignore : List MatcherSpec := []
  style : List StyleSpec := []
deriving DecidableEq, Repr, Inhabited

namespace RuleSet

/-- Grey ellipses for classes, dark boxes for modules. -/
def defaultStyles : List StyleSpec :=
  [{ matcher := { predicate := some .isClass },
     attributes := .ofList [("shape", "ellipse"), ("fillcolor", "#cccccc"), ("fontcolor", "black")] },
   { matcher := { predicate := some .isModule },
     attributes := .ofList [("shape", "box"), ("fillcolor", "#333333"), ("fontcolor", "white")] }]

/-- Builds matchers one after the other, numbered from `number`; the first error counts. -/
def buildAll (reader : PatternReader) (label : String) :
    Nat → List MatcherSpec → Except RuleError (List Matcher)
  | _, [] => .ok []
  | number, spec :: rest =>
    match spec.build reader (label ++ " #" ++ toString number) with
    | .error e => .error e
    | .ok matcher =>
      match buildAll reader label (number + 1) rest with
      | .error e => .error e
      | .ok matchers => .ok (matcher :: matchers)

/-- The matchers of all rules: ignore rules first, then style rules with their attributes. -/
def build (rules : RuleSet) (reader : PatternReader) :
    Except RuleError (List Matcher × List (Matcher × Style)) :=
  match buildAll reader "ignore" 1 rules.ignore with
  | .error e => .error e
  | .ok ignore =>
    match buildAll reader "style" 1 (rules.style.map (fun spec => spec.matcher)) with
    | .error e => .error e
    | .ok style => .ok (ignore, style.zip (rules.style.map (fun spec => spec.attributes)))

end RuleSet

end ClassAtlas
