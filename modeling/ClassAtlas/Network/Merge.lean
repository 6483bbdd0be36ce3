import ClassAtlas.Network

/-!
# Moving a node to another path

Two ways to give a node another path. If a node already has that path, the first is absorbed: its
relations go over to the other, and it is removed. If none has it, the node keeps its relations and is
registered under the new path; and if the enclosing path has a node, that node becomes its container.

Containment is not moved by absorbing: what the absorbed node contains is moved before it, node by
node.
-/

namespace ClassAtlas

namespace Network

/-- A relation that leaves an absorbed node now leaves `target`. A class keeps the superclass that it
has. -/
def adoptTarget (target : NodeId) (net : Network) (edge : Edge) : Network :=
  if edge.relation == .inheritance && !(net.targets target .inheritance).isEmpty then net
  else net.link target edge.target edge.relation

/-- A relation that enters an absorbed node now enters `target`. -/
def adoptSource (target : NodeId) (net : Network) (edge : Edge) : Network :=
  net.link edge.source target edge.relation

/-- The relations of a node other than containment, among the given edges. -/
def loose (entries : List (Nat × Edge)) : List Edge :=
  (entries.map Prod.snd).filter (fun edge => edge.relation != .containment)

/-- Marks a module as extending itself; a class stays as it is. -/
def markSingleton (net : Network) (id : NodeId) : Network :=
  net.modifyNode id (fun node =>
    if node.kind = .moduleNode then { node with singleton := true } else node)

/-- The node is a module that extends itself. -/
def isSingleton (net : Network) (id : NodeId) : Bool :=
  match net.node? id with
  | some node => node.singleton
  | none => false

/-- Moves the relations of `stale` to `target`, then removes `stale`. -/
def absorb (net : Network) (stale target : NodeId) : Network :=
  let leaving := loose (net.outgoing stale)
  let entering := loose (net.incoming stale)
  let moved := entering.foldl (adoptSource target) (leaving.foldl (adoptTarget target) net)
  let marked := if net.isSingleton stale then moved.markSingleton target else moved
  marked.removeNode stale

/-- The edges by which a node is contained. -/
def containerEdges (net : Network) (id : NodeId) : List Nat :=
  ((net.incoming id).filter (fun entry => entry.2.relation == .containment)).map Prod.fst

/-- Registers a node under another path. If the enclosing path has a node, it becomes the container. -/
def rekey (net : Network) (id : NodeId) (path : Path) : Network :=
  let named := ((net.modifyNode id (fun node => { node with path := path })).unregister
    (net.pathOf id)).register path id
  match path.parent?.bind named.lookup with
  | none => named
  | some outer => (named.removeEdges (named.containerEdges id)).link outer id .containment

end Network

end ClassAtlas
