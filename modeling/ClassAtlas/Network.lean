import ClassAtlas.Arena
import ClassAtlas.Path
import ClassAtlas.Relation
import ClassAtlas.Style

/-!
# Networks

The nodes and edges of a class graph, with an index from paths to nodes. A node is known by an
identifier, which stays the same when its path changes; the index says which node has a path.

This module holds the elementary changes: adding a node, moving it to another path, removing it with
its edges, adding an edge. An edge is refused if it would be a loop, a second copy, or a second
container of its target.
-/

namespace ClassAtlas

/-- The identifier of a node. -/
abbrev NodeId := Nat

/-- A class or module. Its relations are edges of the network. -/
structure Node where
  path : Path
  kind : Kind
  /-- A module that extends itself. -/
  singleton : Bool := false
  /-- Drawing attributes, set by style rules. -/
  style : Style := .empty
deriving DecidableEq, Repr, Inhabited

/-- One relation between two nodes. -/
structure Edge where
  source : NodeId
  target : NodeId
  relation : Relation
deriving DecidableEq, Repr, Inhabited

/-- Nodes, edges, and the node of each path. -/
structure Network where
  nodes : Arena Node := {}
  edges : Arena Edge := {}
  index : List (Path × NodeId) := []
deriving Inhabited

namespace Network

/-! ## Reading -/

/-- The node under an identifier. -/
def node? (net : Network) (id : NodeId) : Option Node :=
  net.nodes.get? id

/-- The path of a node; the empty path if there is no such node. -/
def pathOf (net : Network) (id : NodeId) : Path :=
  match net.node? id with
  | some node => node.path
  | none => ⟨[]⟩

/-- The node that a path names. -/
def lookup (net : Network) (path : Path) : Option NodeId :=
  net.index.lookup path

/-- The edges that leave a node, newest first. -/
def outgoing (net : Network) (id : NodeId) : List (Nat × Edge) :=
  net.edges.entries.filter (fun entry => entry.2.source == id)

/-- The edges that enter a node, newest first. -/
def incoming (net : Network) (id : NodeId) : List (Nat × Edge) :=
  net.edges.entries.filter (fun entry => entry.2.target == id)

/-- The nodes that a node is related to, newest edge first. -/
def targets (net : Network) (id : NodeId) (relation : Relation) : List NodeId :=
  ((net.outgoing id).filter (fun entry => entry.2.relation == relation)).map (fun entry => entry.2.target)

/-- The nodes that are related to a node, newest edge first. -/
def sources (net : Network) (id : NodeId) (relation : Relation) : List NodeId :=
  ((net.incoming id).filter (fun entry => entry.2.relation == relation)).map (fun entry => entry.2.source)

/-- There is an edge from one node to another with this relation. -/
def hasEdge (net : Network) (source target : NodeId) (relation : Relation) : Bool :=
  (net.targets source relation).contains target

/-- The node that contains a node. -/
def container? (net : Network) (id : NodeId) : Option NodeId :=
  (net.sources id .containment).head?

/-! ## Nodes -/

/-- Makes a path name a node, in place of any other. -/
def register (net : Network) (path : Path) (id : NodeId) : Network :=
  { net with index := (path, id) :: net.index.filter (fun entry => entry.1 != path) }

/-- Makes a path name nothing. -/
def unregister (net : Network) (path : Path) : Network :=
  { net with index := net.index.filter (fun entry => entry.1 != path) }

/-- The identifier that the next node gets. -/
def nextId (net : Network) : NodeId :=
  net.nodes.nextId

/-- Adds a node under `nextId` and registers its path. -/
def addNode (net : Network) (node : Node) : Network :=
  { net with nodes := net.nodes.insert node }.register node.path net.nextId

/-- Changes a node in place. -/
def modifyNode (net : Network) (id : NodeId) (f : Node → Node) : Network :=
  { net with nodes := net.nodes.modify id f }

/-- Removes edges, one after the other. -/
def removeEdges (net : Network) (ids : List Nat) : Network :=
  { net with edges := ids.foldl Arena.erase net.edges }

/-- Removes a node, the edges that leave it, the edges that enter it, and its path. -/
def removeNode (net : Network) (id : NodeId) : Network :=
  match net.node? id with
  | none => net
  | some node =>
    let bare := net.removeEdges ((net.outgoing id ++ net.incoming id).map Prod.fst)
    { bare with nodes := bare.nodes.erase id }.unregister node.path

/-! ## Edges -/

/-- An edge may be added: it is no loop and no copy, and it gives its target no second container. -/
def admits (net : Network) (source target : NodeId) (relation : Relation) : Bool :=
  source != target && !net.hasEdge source target relation &&
    (relation != .containment || (net.container? target).isNone)

/-- Adds an edge. -/
def addEdge (net : Network) (source target : NodeId) (relation : Relation) : Network :=
  { net with edges := net.edges.insert ⟨source, target, relation⟩ }

/-- Adds an edge if it may be added. -/
def link (net : Network) (source target : NodeId) (relation : Relation) : Network :=
  if net.admits source target relation then net.addEdge source target relation else net

/-! ## Laws of the changes -/

@[simp] theorem nodes_register (net : Network) (path : Path) (id : NodeId) :
    (net.register path id).nodes = net.nodes := rfl

@[simp] theorem edges_register (net : Network) (path : Path) (id : NodeId) :
    (net.register path id).edges = net.edges := rfl

@[simp] theorem nodes_unregister (net : Network) (path : Path) :
    (net.unregister path).nodes = net.nodes := rfl

@[simp] theorem edges_unregister (net : Network) (path : Path) :
    (net.unregister path).edges = net.edges := rfl

@[simp] theorem nodes_addEdge (net : Network) (source target : NodeId) (relation : Relation) :
    (net.addEdge source target relation).nodes = net.nodes := rfl

@[simp] theorem index_addEdge (net : Network) (source target : NodeId) (relation : Relation) :
    (net.addEdge source target relation).index = net.index := rfl

@[simp] theorem nodes_link (net : Network) (source target : NodeId) (relation : Relation) :
    (net.link source target relation).nodes = net.nodes := by
  unfold link; split <;> rfl

@[simp] theorem index_link (net : Network) (source target : NodeId) (relation : Relation) :
    (net.link source target relation).index = net.index := by
  unfold link; split <;> rfl

@[simp] theorem edges_modifyNode (net : Network) (id : NodeId) (f : Node → Node) :
    (net.modifyNode id f).edges = net.edges := rfl

@[simp] theorem index_modifyNode (net : Network) (id : NodeId) (f : Node → Node) :
    (net.modifyNode id f).index = net.index := rfl

theorem lookup_register (net : Network) (path other : Path) (id : NodeId) :
    (net.register path id).lookup other = if other = path then some id else net.lookup other := by
  unfold lookup register
  by_cases h : other = path <;> simp [Assoc.lookup_cons, Assoc.lookup_filter_ne, h]

theorem lookup_unregister (net : Network) (path other : Path) :
    (net.unregister path).lookup other = if other = path then none else net.lookup other :=
  Assoc.lookup_filter_ne path other net.index

end Network

end ClassAtlas
