import ClassAtlas.Graph

/-!
# Styles and pruning

What is done to a graph once both passes are over. Styles are applied once. Pruning removes the nodes
that an ignore rule accepts; since removing nodes takes relations away from others, it is repeated
until a round removes nothing.
-/

namespace ClassAtlas

namespace Graph

/-- Applies style rules to one node in turn; each sees what the ones before it did. -/
def styleNode (rules : List (Matcher × Style)) (net : Network) (id : NodeId) : Network :=
  rules.foldl (fun net (matcher, attributes) =>
    if matcher.accepts net id then
      net.modifyNode id (fun node => { node with style := node.style.merge attributes })
    else net) net

/-- Applies the style rules to every node, once in the life of a graph. -/
def applyStyles (g : Graph) : Graph :=
  if g.styled then g.note .alreadyStyled
  else { g with styled := true, net := g.net.nodeIds.foldl (styleNode g.styleRules) g.net }

/-- The nodes that an ignore rule accepts. -/
def prunees (g : Graph) : List NodeId :=
  g.net.nodeIds.filter (fun id => g.excludeRules.any (fun matcher => matcher.accepts g.net id))

/-- Removes a node and reports its path. -/
def drop (g : Graph) (id : NodeId) : Graph :=
  { g with net := g.net.removeNode id }.note (.pruned (g.net.pathOf id))

/-- Removes the nodes that an ignore rule accepts in the graph as it is, and counts them. -/
def prune (g : Graph) : Nat × Graph :=
  (g.prunees.length, g.prunees.foldl drop g)

/-- At most `fuel` rounds of pruning, up to one that removes nothing; `round` is the number of the
next one. Gives the count of each round that removed something. -/
def pruneRounds : Nat → Nat → Graph → List Nat × Graph
  | 0, _, g => ([], g)
  | fuel + 1, round, g =>
    let (removed, pruned) := g.prune
    if removed = 0 then ([], pruned)
    else
      let (counts, final) := pruneRounds fuel (round + 1) (pruned.note (.roundPruned removed round))
      (removed :: counts, final)

/-- Prunes until a round removes nothing. Every other round removes a node, so there are no more of
them than nodes. -/
def pruneAll (g : Graph) : List Nat × Graph :=
  pruneRounds g.nodeCount 1 g

end Graph

end ClassAtlas
