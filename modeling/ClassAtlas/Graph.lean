import ClassAtlas.Event
import ClassAtlas.Network.Merge
import ClassAtlas.Network.Resolve
import ClassAtlas.Rules

/-!
# Graphs under construction

A graph is a network together with the state of its construction: the scopes that are open, the pass
in progress, the rules, and a journal of what happened.

Construction walks over the same declarations twice. The first pass makes nodes and containment. The
second meets all declarations again, now that every name is known, and adds superclasses and mixins.
A qualified declaration such as `class A::B` whose first part is not known yet gets its bare path and
is provisional. If the second pass finds that it belongs elsewhere, it is folded into its real place
when that pass ends.

No rule can be added once a pass has begun.
-/

namespace ClassAtlas

/-- A network with the state of its construction. -/
structure Graph where
  net : Network := {}
  /-- The declarations around the current place, innermost first. -/
  scope : List NodeId := []
  /-- The pass in progress. -/
  pass : Option Pass := none
  /-- A pass has begun, so the rules are fixed. -/
  rulesFrozen : Bool := false
  /-- The style rules have been applied. -/
  styled : Bool := false
  /-- Nodes made by a qualified declaration whose first part was unknown. -/
  provisional : List NodeId := []
  /-- Provisional nodes with the path where their declaration belongs, in the order found. -/
  relocations : List (NodeId × Path) := []
  excludeRules : List Matcher := []
  styleRules : List (Matcher × Style) := []
  /-- What happened, in order. -/
  journal : List Event := []
deriving Inhabited

namespace Graph

/-- The graph before anything is known. -/
def empty : Graph := {}

/-- Adds an event to the journal. -/
def note (g : Graph) (event : Event) : Graph :=
  { g with journal := g.journal ++ [event] }

/-- The number of nodes. -/
def nodeCount (g : Graph) : Nat :=
  g.net.nodes.size

/-- The number of edges. -/
def edgeCount (g : Graph) : Nat :=
  g.net.edges.size

/-- The counts of a graph in one line. -/
def summary (g : Graph) : String :=
  "Graph \x7b node_count: " ++ toString g.nodeCount ++ ", edge_count: " ++ toString g.edgeCount ++
    ", exclude_rules: " ++ toString g.excludeRules.length ++ ", style_rules: " ++
    toString g.styleRules.length ++ " \x7d"

/-! ## Rules -/

/-- Adds an ignore rule: nodes that it accepts are pruned. -/
def ignore (g : Graph) (matcher : Matcher) : Except RuleError Graph :=
  if g.rulesFrozen then .error .frozen
  else .ok { g with excludeRules := g.excludeRules ++ [matcher] }

/-- Adds a style rule: nodes that it accepts get the attributes. -/
def style (g : Graph) (matcher : Matcher) (attributes : Style) : Except RuleError Graph :=
  if g.rulesFrozen then .error .frozen
  else .ok { g with styleRules := g.styleRules ++ [(matcher, attributes)] }

/-- Adds ignore rules one after the other, up to the first that is refused. Those before it stay. -/
def ignoreAll (g : Graph) : List Matcher → Except RuleError Unit × Graph
  | [] => (.ok (), g)
  | matcher :: rest =>
    match g.ignore matcher with
    | .error e => (.error e, g)
    | .ok added => added.ignoreAll rest

/-- Adds style rules one after the other, up to the first that is refused. Those before it stay. -/
def styleAll (g : Graph) : List (Matcher × Style) → Except RuleError Unit × Graph
  | [] => (.ok (), g)
  | (matcher, attributes) :: rest =>
    match g.style matcher attributes with
    | .error e => (.error e, g)
    | .ok added => added.styleAll rest

/-- Checks all rules, then adds them one after the other. Gives the outcome and the graph that is
left, also if a rule is refused. -/
def install (g : Graph) (reader : PatternReader) (rules : RuleSet) : Except RuleError Unit × Graph :=
  match rules.build reader with
  | .error e => (.error e, g)
  | .ok (ignored, styles) =>
    match g.ignoreAll ignored with
    | (.error e, ignoring) => (.error e, ignoring)
    | (.ok _, ignoring) => ignoring.styleAll styles

/-! ## Scopes -/

/-- The innermost open declaration. -/
def top? (g : Graph) : Option NodeId :=
  g.scope.head?

/-- The path of the innermost open declaration. -/
def currentScope? (g : Graph) : Option Path :=
  g.top?.map g.net.pathOf

/-- The paths of the open declarations, outermost first. -/
def scopePaths (g : Graph) : List Path :=
  (g.scope.map g.net.pathOf).reverse

/-- The path that a declaration of this name has at the current place, and the node around it.
`self` and the empty name declare nothing. A plain name lies in the innermost scope. A qualified name
lies in the node that its first part resolves to, and has its bare path if there is none. An absolute
name lies where it says. -/
def declarationTarget (g : Graph) (name : Reference) : Option (Path × Option NodeId) :=
  match name with
  | .selfRef => none
  | .relative [] => none
  | .absolute [] => none
  | .relative [segment] =>
    match g.top? with
    | some top => some ((g.net.pathOf top).child segment, some top)
    | none => some (⟨[segment]⟩, none)
  | .relative segments =>
    match g.net.resolveSegments segments.dropLast g.top? with
    | some outer => some ((g.net.pathOf outer).child (segments.getLastD ""), some outer)
    | none => some (⟨segments⟩, none)
  | .absolute segments =>
    let path : Path := ⟨segments⟩
    some (path, path.parent?.bind g.net.lookup)

/-- The node with a path, made if there is none. A node that exists keeps its kind. -/
def findOrAdd (g : Graph) (path : Path) (kind : Kind) : NodeId × Graph :=
  match g.net.lookup path with
  | some id =>
    match g.net.node? id with
    | some node =>
      if node.kind = kind then (id, g) else (id, g.note (.kindConflict path kind node.kind))
    | none => (id, g)
  | none => (g.net.nextId, { g with net := g.net.addNode { path := path, kind := kind } })

/-- A node is provisional. -/
def isProvisional (g : Graph) (id : NodeId) : Bool :=
  g.provisional.contains id

/-- A node is no longer provisional. -/
def settle (g : Graph) (id : NodeId) : Graph :=
  { g with provisional := g.provisional.filter (· != id) }

/-- Keeps track of provisional nodes at a declaration. A declaration with an unknown first part makes
its node provisional in the first pass. Any other declaration settles its node; and if it is
qualified and its bare path has a provisional node, that node belongs where this declaration is. -/
def trackProvisional (g : Graph) (name : Reference) (path : Path) (outer : Option NodeId)
    (id : NodeId) : Graph :=
  match name.isAmbiguous, outer with
  | false, _ => g.settle id
  | true, none =>
    if g.pass = some .findNodes ∧ !g.isProvisional id then
      { g with provisional := id :: g.provisional }
    else g
  | true, some _ =>
    let settled := g.settle id
    let bare : Path := ⟨name.segments⟩
    if bare = path then settled
    else
      match settled.net.lookup bare with
      | none => settled
      | some stale =>
        if settled.isProvisional stale then
          { settled with relocations := settled.relocations ++ [(stale, path)] }
        else settled

/-- Puts a declared node into the node around it, if there is one. -/
def contain (g : Graph) (outer : Option NodeId) (id : NodeId) : Graph :=
  match outer with
  | none => g
  | some outer => { g with net := g.net.link outer id .containment }

/-- Opens the scope of a declaration: finds or makes its node and makes it the innermost scope. Gives
the path of the declaration, or `none` if the name declares nothing. -/
def enter (g : Graph) (kind : Kind) (name : Reference) : Option (Path × Graph) :=
  match g.declarationTarget name with
  | none => none
  | some (path, outer) =>
    let (id, found) := g.findOrAdd path kind
    let placed := (found.trackProvisional name path outer id).contain outer id
    some (path, { placed with scope := id :: placed.scope })

/-- Closes the innermost scope. -/
def leave (g : Graph) : Graph :=
  { g with scope := g.scope.tail }

/-- A declaration with its body. -/
def declare (g : Graph) (kind : Kind) (name : Reference) (body : Graph → Graph) : Option Path × Graph :=
  match g.enter kind name with
  | none => (none, g)
  | some (path, inner) => (some path, (body inner).leave)

/-! ## Relations -/

/-- Adds an edge if it may be added, and says whether it was. -/
def connect (g : Graph) (source target : NodeId) (relation : Relation) : Bool × Graph :=
  (g.net.admits source target relation, { g with net := g.net.link source target relation })

/-- The name of a superclass is looked up from around the class. -/
def superclassOrigin (g : Graph) : Option NodeId :=
  g.scope.tail.head?

/-- Records the superclass of the innermost declaration; true if an edge was added. Only classes have
superclasses, only classes can be one, and the first one stays. -/
def inherit (g : Graph) (superclass : Reference) : Bool × Graph :=
  if g.pass ≠ some .findRelations then (false, g.note (.superclassTooEarly superclass))
  else
    match g.top? with
    | none => (false, g)
    | some cls =>
      let path := g.net.pathOf cls
      if g.net.kindOf? cls ≠ some .classNode then
        (false, g.note (.superclassOfModule path superclass))
      else
        match g.net.resolve superclass g.superclassOrigin with
        | none => (false, g.note (.superclassUnresolved superclass path))
        | some target =>
          if g.net.kindOf? target ≠ some .classNode then
            (false, g.note (.superclassNotClass (g.net.pathOf target) path))
          else
            match (g.net.targets cls .inheritance).head? with
            | some existing =>
              if existing = target then (false, g)
              else
                (false, g.note (.superclassKept path (g.net.pathOf existing) (g.net.pathOf target)))
            | none => g.connect cls target .inheritance

/-- Marks a module as extending itself; in a class the statement has no effect. -/
def markSingleton (g : Graph) (id : NodeId) : Graph :=
  if g.net.kindOf? id = some .moduleNode then { g with net := g.net.markSingleton id }
  else g.note (.extendSelfInClass (g.net.pathOf id))

/-- Records a mixin of the innermost declaration; true if an edge was added. `extend self` marks a
module instead. Only modules can be mixed in. -/
def mix (g : Graph) (mixin : Mixin) (target : Reference) : Bool × Graph :=
  if g.pass ≠ some .findRelations then (false, g.note (.mixinTooEarly target))
  else
    match g.top? with
    | none => (false, g)
    | some owner =>
      if target = .selfRef then
        match mixin with
        | .extending => (false, g.markSingleton owner)
        | .including => (false, g)
      else
        match g.net.resolve target (some owner) with
        | none => (false, g.note (.mixinUnresolved mixin target (g.net.pathOf owner)))
        | some resolved =>
          if g.net.kindOf? resolved ≠ some .moduleNode then
            (false, g.note (.mixinNotModule mixin (g.net.pathOf resolved)))
          else g.connect owner resolved mixin.relation

/-- The path that a reference resolves to, from a path or from the top level. From a path without a
node nothing resolves. -/
def resolve (g : Graph) (name : Reference) (origin : Option Path) : Option Path :=
  match origin with
  | none => (g.net.resolve name none).map g.net.pathOf
  | some path =>
    match g.net.lookup path with
    | none => none
    | some id => (g.net.resolve name (some id)).map g.net.pathOf

/-! ## Passes -/

/-- Begins a walk over the declarations and fixes the rules. -/
def beginPass (g : Graph) (pass : Pass) : Graph :=
  { g with scope := [], rulesFrozen := true, pass := some pass }.note (.passBegun pass)

/-- Absorbs a node into another one, unless it is the node itself or there is none: then it takes the
path. -/
def place (g : Graph) (stale : NodeId) (path : Path) : Graph :=
  match g.net.lookup path with
  | none => { g with net := g.net.rekey stale path }
  | some target =>
    if target = stale then { g with net := g.net.rekey stale path }
    else
      let absorbed := { g with net := g.net.absorb stale target }
      if g.net.isSingleton stale ∧ g.net.kindOf? target ≠ some .moduleNode then
        absorbed.note (.extendSelfInClass (g.net.pathOf target))
      else absorbed

/-- Moves a node and all that it contains to a path: first the contained nodes, each to its name under
that path, then the node itself. `fuel` bounds the depth of containment. If it is too small, as it is
for a node that contains itself whatever the bound, there is no result. -/
def foldInto : Nat → Graph → NodeId → Path → Option Graph
  | 0, _, _, _ => none
  | fuel + 1, g, stale, path =>
    ((g.net.targets stale .containment).foldlM
      (fun g child => foldInto fuel g child (path.child (g.net.pathOf child).name)) g).map
      (fun moved => moved.place stale path)

/-- Moves one provisional node to its place, if it is still provisional. No containment is deeper than
the number of nodes, except that of a node that contains itself: such a node stays where it is. -/
def relocate (g : Graph) (relocation : NodeId × Path) : Graph :=
  let (stale, path) := relocation
  if g.isProvisional stale then
    let settled := g.settle stale
    if settled.net.nodes.contains stale then
      let noted := settled.note (.folding (settled.net.pathOf stale) path)
      (foldInto noted.nodeCount noted stale path).getD noted
    else settled
  else g

/-- Moves all provisional nodes to their places, in the order in which the places were found. -/
def foldProvisional (g : Graph) : Graph :=
  let folded := g.relocations.foldl relocate { g with relocations := [] }
  { folded with provisional := [] }

/-- Ends a walk. At the end of the second pass provisional nodes go to their places. -/
def endPass (g : Graph) : Graph :=
  let closed :=
    if g.scope.isEmpty then g else { g.note (.scopesLeftOpen g.scope.length) with scope := [] }
  let folded := if closed.pass = some .findRelations then closed.foldProvisional else closed
  { folded with pass := none }

end Graph

end ClassAtlas
