import ClassAtlas.Network

/-!
# Views of a network

What listings, drawings and rules see: nodes and edges sorted by path, the relations of one node in
both directions, and the properties that rules ask for. Nodes whose paths have the same text keep the
order of their identifiers (in listings of the whole network) or of their edges, newest first (in the
relations of one node), because sorting is stable.
-/

namespace ClassAtlas

namespace Network

/-! ## Listings -/

/-- Nodes sorted by path. -/
def byPath (net : Network) (ids : List NodeId) : List NodeId :=
  ids.mergeSort (fun a b => (net.pathOf a).le (net.pathOf b))

/-- All nodes, sorted by path. -/
def nodeIds (net : Network) : List NodeId :=
  net.byPath (net.nodes.ascending.map Prod.fst)

/-- The kind of a node. -/
def kindOf? (net : Network) (id : NodeId) : Option Kind :=
  (net.node? id).map (fun node => node.kind)

/-- The nodes of one kind, sorted by path. -/
def ofKind (net : Network) (kind : Kind) : List NodeId :=
  net.nodeIds.filter (fun id => net.kindOf? id == some kind)

/-- Edges are sorted by the path of the source, then by the path of the target. -/
def edgeLe (net : Network) (a b : NodeId × NodeId) : Bool :=
  ((compare (net.pathOf a.1) (net.pathOf b.1)).then
    (compare (net.pathOf a.2) (net.pathOf b.2))).isLE

/-- The edges of one relation as source and target, sorted. -/
def pairs (net : Network) (relation : Relation) : List (NodeId × NodeId) :=
  ((net.edges.ascending.filter (fun entry => entry.2.relation == relation)).map
    (fun entry => (entry.2.source, entry.2.target))).mergeSort net.edgeLe

/-! ## The relations of one node -/

/-- The node that contains a node. -/
def parent? (net : Network) (id : NodeId) : Option NodeId :=
  (net.byPath (net.sources id .containment)).head?

/-- The nodes that a node contains. -/
def children (net : Network) (id : NodeId) : List NodeId :=
  net.byPath (net.targets id .containment)

/-- The class that a class derives from. -/
def superclass? (net : Network) (id : NodeId) : Option NodeId :=
  (net.byPath (net.targets id .inheritance)).head?

/-- The classes that derive from a class. -/
def subclasses (net : Network) (id : NodeId) : List NodeId :=
  net.byPath (net.sources id .inheritance)

/-- The modules that a node includes. -/
def included (net : Network) (id : NodeId) : List NodeId :=
  net.byPath (net.targets id .inclusion)

/-- The nodes that include a module. -/
def includers (net : Network) (id : NodeId) : List NodeId :=
  net.byPath (net.sources id .inclusion)

/-- The modules that extend a node. -/
def extensions (net : Network) (id : NodeId) : List NodeId :=
  net.byPath (net.targets id .extension)

/-- The nodes that a module extends. -/
def extenders (net : Network) (id : NodeId) : List NodeId :=
  net.byPath (net.sources id .extension)

/-! ## Properties -/

/-- A node without any edge. -/
def isIsland (net : Network) (id : NodeId) : Bool :=
  (net.outgoing id).isEmpty && (net.incoming id).isEmpty

/-- A node that no node contains. -/
def isOrphan (net : Network) (id : NodeId) : Bool :=
  (net.parent? id).isNone

/-- The label of a node: its name if it is contained, its whole path if not. -/
def labelOf (net : Network) (id : NodeId) : String :=
  if net.isOrphan id then (net.pathOf id).display else (net.pathOf id).name

/-- A short description of a node: its kind and, in parentheses, its path. -/
def describe (net : Network) (id : NodeId) : String :=
  ((net.kindOf? id).map Kind.display).getD "" ++ "(" ++ (net.pathOf id).display ++ ")"

/-- The edges that leave a node which is not in `seen`. -/
def edgesUnseen (net : Network) (seen : List NodeId) : List (Nat × Edge) :=
  net.edges.entries.filter (fun entry => !seen.contains entry.2.source)

/-- A step to a superclass uses up an edge. -/
theorem edgesUnseen_lt {net : Network} {seen : List NodeId} {id next : NodeId} (fresh : id ∉ seen)
    (h : net.superclass? id = some next) :
    (net.edgesUnseen (id :: seen)).length < (net.edgesUnseen seen).length := by
  have hmem : next ∈ net.targets id .inheritance :=
    (List.mergeSort_perm _ _).mem_iff.mp (List.mem_of_head? h)
  obtain ⟨entry, hentry, _⟩ := List.mem_map.mp hmem
  obtain ⟨hedge, hsource⟩ := List.mem_filter.mp (List.mem_filter.mp hentry).1
  have hfewer : net.edgesUnseen (id :: seen) =
      (net.edgesUnseen seen).filter (fun entry => decide (entry.2.source ≠ id)) := by
    simp [edgesUnseen, List.filter_filter]
  rw [hfewer, List.length_filter_lt_length_iff_exists]
  refine ⟨entry, List.mem_filter.mpr ⟨hedge, ?_⟩, ?_⟩
  · rw [beq_iff_eq.mp hsource]
    simpa using fresh
  · simpa using hsource

/-- The way from a class to its superclass, the superclass of that, and so on, meets the node with this
path. The nodes in `seen` are behind; the way ends where it comes back to one of them, or where there
is no superclass. -/
def derives (net : Network) (path : Path) (seen : List NodeId) (id : NodeId) : Bool :=
  if net.pathOf id = path then true
  else if id ∈ seen then false
  else (net.superclass? id).attach.any (fun next => net.derives path (id :: seen) next.val)
termination_by (net.edgesUnseen seen).length
decreasing_by exact edgesUnseen_lt ‹_› next.property

theorem derives_eq (net : Network) (path : Path) (seen : List NodeId) (id : NodeId) :
    net.derives path seen id =
      (if net.pathOf id = path then true
      else if id ∈ seen then false
      else (net.superclass? id).any (net.derives path (id :: seen))) := by
  rw [derives]
  simp only [Option.any_attach]

/-- A node derives, in any number of steps, from the node with this path; it derives from itself. -/
def inheritsFrom (net : Network) (id : NodeId) (path : Path) : Bool :=
  net.derives path [] id

/-- A node includes the module with this path. -/
def includesPath (net : Network) (id : NodeId) (path : Path) : Bool :=
  (net.included id).any (fun other => net.pathOf other == path)

/-- A node is extended by the module with this path. -/
def extendsPath (net : Network) (id : NodeId) (path : Path) : Bool :=
  (net.extensions id).any (fun other => net.pathOf other == path)

/-! ## Laws of listings -/

theorem byPath_perm (net : Network) (ids : List NodeId) : (net.byPath ids).Perm ids :=
  List.mergeSort_perm _ _

theorem mem_byPath {net : Network} {ids : List NodeId} {id : NodeId} :
    id ∈ net.byPath ids ↔ id ∈ ids :=
  (net.byPath_perm ids).mem_iff

theorem pairwise_byPath (net : Network) (ids : List NodeId) :
    (net.byPath ids).Pairwise (fun a b => (net.pathOf a).le (net.pathOf b) = true) := by
  unfold byPath
  apply List.pairwise_mergeSort
  · intro a b c h₁ h₂
    exact Path.le_trans h₁ h₂
  · intro a b
    exact Path.le_total _ _

/-- A listing has every node once. -/
theorem nodeIds_perm (net : Network) : net.nodeIds.Perm net.nodes.ids :=
  (net.byPath_perm _).trans (net.nodes.ascending_perm.map _)

end Network

end ClassAtlas
