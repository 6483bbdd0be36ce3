import ClassAtlas.Proofs.NetworkLaws
import ClassAtlas.Rules

/-!
# Networks without their styles

A network is laid bare by taking the styles off its nodes. Two networks that are the same when laid bare
have the same nodes under the same identifiers, with the same paths, kinds and marks, the same edges and
the same index.

Listings and relations do not look at styles, so neither does a matcher that settings can write
(`Matcher.Blind`, `blind_of_build`), and removing a node is the same before and after laying bare
(`bare_removeNode`).
-/

namespace ClassAtlas

/-! ## Changing all values of an arena -/

namespace Arena

variable {α : Type}

/-- The arena in which every value is changed. -/
def mapValues (a : Arena α) (f : α → α) : Arena α :=
  { a with entries := a.entries.map (fun entry => (entry.1, f entry.2)) }

theorem get?_mapValues (a : Arena α) (f : α → α) (id : Nat) :
    (a.mapValues f).get? id = (a.get? id).map f := by
  unfold get? mapValues
  induction a.entries with
  | nil => rfl
  | cons entry rest ih =>
    obtain ⟨key, value⟩ := entry
    rw [List.map_cons, Assoc.lookup_cons, Assoc.lookup_cons, ih]
    split <;> rfl

theorem ids_ascending_mapValues (a : Arena α) (f : α → α) :
    (a.mapValues f).ascending.map Prod.fst = a.ascending.map Prod.fst := by
  have hsort : (a.mapValues f).ascending = a.ascending.map (fun entry => (entry.1, f entry.2)) := by
    refine (List.map_mergeSort ?_).symm
    intro _ _ _ _
    rfl
  rw [hsort, List.map_map]
  rfl

theorem erase_mapValues (a : Arena α) (f : α → α) (id : Nat) :
    (a.erase id).mapValues f = (a.mapValues f).erase id := by
  have hcontains : (a.mapValues f).contains id = a.contains id := by
    simp [contains, mapValues, Function.comp_def]
  unfold erase
  rw [hcontains]
  split
  · simp [mapValues, List.filter_map, Function.comp_def]
  · rfl

/-- What only changes what `f` takes off does not show. -/
theorem mapValues_modify (a : Arena α) {f change : α → α} (id : Nat)
    (unseen : ∀ value, f (change value) = f value) :
    (a.modify id change).mapValues f = a.mapValues f := by
  unfold mapValues modify
  simp only [List.map_map]
  congr 1
  refine List.map_congr_left fun entry _ => ?_
  by_cases h : entry.1 = id <;> simp [h, unseen]

end Arena

/-- The node without its style. -/
def Node.bare (node : Node) : Node :=
  { node with style := .empty }

namespace Network

variable {net other : Network}

/-- The network without the styles of its nodes. -/
def bare (net : Network) : Network :=
  { net with nodes := net.nodes.mapValues Node.bare }

/-! ## Views -/

@[simp] theorem node?_bare (net : Network) (id : NodeId) :
    net.bare.node? id = (net.node? id).map Node.bare :=
  net.nodes.get?_mapValues Node.bare id

theorem live_bare {net : Network} {id : NodeId} : net.bare.Live id ↔ net.Live id := by
  rw [live_iff, live_iff, node?_bare]
  cases net.node? id <;> simp

@[simp] theorem pathOf_bare (net : Network) : net.bare.pathOf = net.pathOf := by
  funext id
  unfold pathOf
  rw [node?_bare]
  cases net.node? id <;> rfl

@[simp] theorem kindOf?_bare (net : Network) (id : NodeId) : net.bare.kindOf? id = net.kindOf? id := by
  unfold kindOf?
  rw [node?_bare]
  cases net.node? id <;> rfl

@[simp] theorem size_bare (net : Network) : net.bare.nodes.size = net.nodes.size := by
  simp [bare, Arena.mapValues, Arena.size]

@[simp] theorem byPath_bare (net : Network) : net.bare.byPath = net.byPath := by
  funext ids
  unfold byPath
  rw [pathOf_bare]

@[simp] theorem nodeIds_bare (net : Network) : net.bare.nodeIds = net.nodeIds := by
  unfold nodeIds
  rw [byPath_bare]
  exact congrArg net.byPath (net.nodes.ids_ascending_mapValues Node.bare)

@[simp] theorem targets_bare (net : Network) : net.bare.targets = net.targets := rfl

@[simp] theorem sources_bare (net : Network) : net.bare.sources = net.sources := rfl

theorem isOrphan_bare (net : Network) (id : NodeId) : net.bare.isOrphan id = net.isOrphan id := by
  simp [isOrphan, parent?]

theorem superclass?_bare (net : Network) : net.bare.superclass? = net.superclass? := by
  funext id
  simp [superclass?]

theorem derives_bare (net : Network) (path : Path) (seen : List NodeId) (id : NodeId) :
    net.bare.derives path seen id = net.derives path seen id := by
  fun_induction net.derives path seen id with
  | case1 seen id hpath => rw [derives_eq, pathOf_bare, if_pos hpath]
  | case2 seen id hpath hseen => rw [derives_eq, pathOf_bare, if_neg hpath, if_pos hseen]
  | case3 seen id hpath hfresh ih =>
    rw [derives_eq, pathOf_bare, if_neg hpath, if_neg hfresh, superclass?_bare, ← funext ih]
    exact (Option.any_attach fun _ _ => rfl).symm

/-- A property that settings can ask for does not depend on styles. -/
theorem holds_bare (spec : PredicateSpec) (net : Network) (id : NodeId) :
    spec.holds net.bare id = spec.holds net id := by
  cases spec with
  | island => rfl
  | orphan => exact net.isOrphan_bare id
  | isClass => simp [PredicateSpec.holds]
  | isModule => simp [PredicateSpec.holds]
  | singleton =>
    unfold PredicateSpec.holds
    rw [node?_bare]
    cases net.node? id <;> rfl
  | inheritsFrom path => simp [PredicateSpec.holds, inheritsFrom, derives_bare]
  | includes path => simp [PredicateSpec.holds, includesPath, included]
  | extendedBy path => simp [PredicateSpec.holds, extendsPath, extensions]
  | named name => simp [PredicateSpec.holds]

/-! ## Removing nodes -/

theorem bare_removeNode (net : Network) (id : NodeId) :
    (net.removeNode id).bare = net.bare.removeNode id := by
  unfold removeNode
  rw [node?_bare]
  cases net.node? id with
  | none => rfl
  | some node =>
    have herase := net.nodes.erase_mapValues Node.bare id
    simp only [Option.map_some, bare, unregister, removeEdges, herase]
    rfl

theorem bare_foldl_removeNode (ids : List NodeId) (net : Network) :
    (ids.foldl removeNode net).bare = ids.foldl removeNode net.bare := by
  induction ids generalizing net with
  | nil => rfl
  | cons id rest ih => rw [List.foldl_cons, ih, bare_removeNode, List.foldl_cons]

end Network

namespace Matcher

/-- The matcher does not look at styles. -/
def Blind (m : Matcher) : Prop :=
  ∀ net id, m.accepts net.bare id = m.accepts net id

/-- Networks that are the same when laid bare are the same to such a matcher. -/
theorem Blind.accepts_eq {m : Matcher} (blind : m.Blind) {net other : Network}
    (same : net.bare = other.bare) (id : NodeId) : m.accepts net id = m.accepts other id := by
  rw [← blind net, ← blind other, same]

/-- All that settings can write is blind. -/
theorem blind_of_build {reader : PatternReader} {spec : MatcherSpec} {rule : String} {m : Matcher}
    (h : spec.build reader rule = .ok m) : m.Blind := by
  intro net id
  unfold MatcherSpec.build at h
  split at h
  · cases h
    simp [accepts]
  · split at h
    · cases h
      simp [accepts]
    · cases h
  · cases h
    exact Network.holds_bare _ net id
  · cases h

end Matcher

end ClassAtlas
