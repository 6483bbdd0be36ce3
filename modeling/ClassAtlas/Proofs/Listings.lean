import ClassAtlas.Drawing
import ClassAtlas.Proofs.BuildStates
import ClassAtlas.Proofs.PathOrder
import ClassAtlas.Proofs.PlainBuild
import ClassAtlas.Snapshot

/-!
# Listings and what is written

Listings are sorted by path. In a sound network without colons in its paths no two nodes are tied, so a
listing is strictly increasing, and strictly increasing lists with the same members are equal. So what a
network writes, as a drawing or as JSON, is determined by its content: by the nodes that it has and by
the paths that its edges join (`Network.SameContent`). In which order nodes and edges came, and which
identifiers they have, does not matter.
-/

namespace ClassAtlas

/-! ## Lists that are sorted without ties -/

/-- Strictly increasing lists with the same members are equal. -/
theorem eq_of_increasing {α : Type} {cmp : α → α → Ordering} [Std.OrientedCmp cmp]
    {first second : List α} (hfirst : first.Pairwise (fun x y => cmp x y = .lt))
    (hsecond : second.Pairwise (fun x y => cmp x y = .lt))
    (same : ∀ x, x ∈ first ↔ x ∈ second) : first = second := by
  have hasymm : ∀ x y, cmp x y = .lt → cmp y x ≠ .lt := by
    intro x y h
    rw [Std.OrientedCmp.gt_of_lt h]
    decide
  have hnodup : ∀ {l : List α}, l.Pairwise (fun x y => cmp x y = .lt) → l.Nodup := by
    intro l hl
    refine hl.imp fun {x y} h heq => ?_
    rw [heq] at h
    exact hasymm y y h h
  have hperm := (List.perm_ext_iff_of_nodup (hnodup hfirst) (hnodup hsecond)).mpr same
  refine hperm.eq_of_pairwise (fun x y _ _ hxy hyx => ?_) hfirst hsecond
  exact absurd hyx (hasymm x y hxy)

/-- Lists with the same keys give the same texts if members with one key do. -/
theorem map_eq_map_of_keys {α β κ γ : Type} {first : List α} {second : List β} {key : α → κ}
    {key' : β → κ} {f : α → γ} {f' : β → γ} (keys : first.map key = second.map key')
    (agree : ∀ x ∈ first, ∀ y ∈ second, key x = key' y → f x = f' y) :
    first.map f = second.map f' := by
  induction first generalizing second with
  | nil =>
      have hnil : second = [] := List.map_eq_nil_iff.mp keys.symm
      rw [hnil]
      rfl
  | cons x rest ih =>
      obtain ⟨y, rest', hsecond, hkey, hkeys⟩ := List.map_eq_cons_iff.mp keys.symm
      subst hsecond
      rw [List.map_cons, List.map_cons,
        agree x List.mem_cons_self y List.mem_cons_self hkey.symm,
        ih hkeys.symm fun x hx y hy => agree x (List.mem_cons_of_mem _ hx) y (List.mem_cons_of_mem _ hy)]

/-- Edges are compared by the paths of their sources, then by those of their targets. -/
def comparePairs : Path × Path → Path × Path → Ordering :=
  compareLex (compareOn Prod.fst) (compareOn Prod.snd)

instance : Std.TransCmp comparePairs :=
  inferInstanceAs (Std.TransCmp (compareLex (compareOn Prod.fst) (compareOn Prod.snd)))

theorem comparePairs_eq_iff {first second : Path × Path} (h₁ : first.1.ColonFree)
    (h₂ : second.1.ColonFree) (h₃ : first.2.ColonFree) (h₄ : second.2.ColonFree) :
    comparePairs first second = .eq ↔ first = second := by
  show (compare first.1 second.1).then (compare first.2 second.2) = .eq ↔ _
  rw [Ordering.then_eq_eq, Path.compare_eq_iff h₁ h₂, Path.compare_eq_iff h₃ h₄, Prod.ext_iff]

namespace Network

variable {net a b : Network}

/-- The ends of an edge as paths. -/
def pathsOf (net : Network) (pair : NodeId × NodeId) : Path × Path :=
  (net.pathOf pair.1, net.pathOf pair.2)

/-- No path of a node is empty or holds a colon. -/
def ColonFree (net : Network) : Prop :=
  ∀ id, net.Live id → (net.pathOf id).ColonFree

/-- The same nodes, and edges of the same relations between the same paths. -/
structure SameContent (a b : Network) : Prop where
  nodes : ∀ node, (∃ id, a.node? id = some node) ↔ ∃ id, b.node? id = some node
  edges : ∀ source target relation, a.Tied source target relation ↔ b.Tied source target relation

/-! ## Listings are strictly increasing -/

theorem live_of_mem_nodeIds {id : NodeId} : id ∈ net.nodeIds ↔ net.Live id :=
  net.nodeIds_perm.mem_iff

theorem increasing_nodeIds (sound : net.Sound) (free : net.ColonFree) :
    net.nodeIds.Pairwise (fun i j => compare (net.pathOf i) (net.pathOf j) = .lt) := by
  have hsorted : net.nodeIds.Pairwise (fun i j => (net.pathOf i).le (net.pathOf j) = true) :=
    net.pairwise_byPath _
  have hnodup : net.nodeIds.Nodup := net.nodeIds_perm.nodup_iff.mpr sound.nodes.ids_nodup
  refine (hsorted.and hnodup).imp_of_mem fun {i j} hi hj h => ?_
  obtain ⟨hle, hne⟩ := h
  have hilive := live_of_mem_nodeIds.mp hi
  have hjlive := live_of_mem_nodeIds.mp hj
  -- a tie would be between two nodes with one path
  have htie : compare (net.pathOf i) (net.pathOf j) ≠ .eq := by
    intro h
    exact hne (sound.eq_of_pathOf_eq hilive hjlive
      ((Path.compare_eq_iff (free i hilive) (free j hjlive)).mp h))
  exact Ordering.isLE_iff_eq_lt_or_eq_eq.mp hle |>.resolve_right htie

theorem increasing_ofKind (sound : net.Sound) (free : net.ColonFree) (kind : Kind) :
    (net.ofKind kind).Pairwise (fun i j => compare (net.pathOf i) (net.pathOf j) = .lt) :=
  (increasing_nodeIds sound free).sublist List.filter_sublist

theorem mem_pairs {relation : Relation} {pair : NodeId × NodeId} :
    pair ∈ net.pairs relation ↔ net.Relates pair.1 pair.2 relation := by
  unfold pairs
  rw [List.mem_mergeSort, List.mem_map, relates_iff]
  constructor
  · intro h
    obtain ⟨entry, hentry, hpair⟩ := h
    obtain ⟨hmem, hrelation⟩ := List.mem_filter.mp hentry
    refine ⟨entry.1, ?_⟩
    have hentry := net.edges.ascending_perm.mem_iff.mp hmem
    rw [← hpair, ← eq_of_beq hrelation]
    exact hentry
  · intro h
    obtain ⟨edge, hmem⟩ := h
    refine ⟨(edge, ⟨pair.1, pair.2, relation⟩), List.mem_filter.mpr ⟨?_, ?_⟩, rfl⟩
    · exact net.edges.ascending_perm.mem_iff.mpr hmem
    · exact beq_self_eq_true relation

/-- An edge is listed once. -/
theorem Sound.nodup_pairs (sound : net.Sound) (relation : Relation) :
    (net.pairs relation).Nodup := by
  let chosen := net.edges.entries.filter (fun entry => entry.2.relation == relation)
  have hperm : (net.pairs relation).Perm
      (chosen.map (fun entry => (entry.2.source, entry.2.target))) :=
    (List.mergeSort_perm _ _).trans ((net.edges.ascending_perm.filter _).map _)
  have hdistinct : (chosen.map Prod.snd).Nodup :=
    sound.distinct.sublist (List.filter_sublist.map _)
  refine hperm.nodup_iff.mpr ?_
  have hmap : chosen.map (fun entry => (entry.2.source, entry.2.target)) =
      (chosen.map Prod.snd).map (fun edge => (edge.source, edge.target)) := by
    simp
  rw [hmap]
  refine hdistinct.map_on fun first hfirst second hsecond hends => ?_
  -- the edges have the relation in common, so their ends tell them apart
  have hrelation : ∀ edge ∈ chosen.map Prod.snd, edge.relation = relation := by
    intro edge hedge
    obtain ⟨entry, hentry, hsame⟩ := List.mem_map.mp hedge
    rw [← hsame]
    exact eq_of_beq (List.mem_filter.mp hentry).2
  obtain ⟨hsource, htarget⟩ := Prod.mk.inj hends
  obtain ⟨source, target, relation₁⟩ := first
  obtain ⟨source', target', relation₂⟩ := second
  have h₁ : relation₁ = relation := hrelation _ hfirst
  have h₂ : relation₂ = relation := hrelation _ hsecond
  simp only at hsource htarget
  rw [hsource, htarget, h₁, h₂]

theorem increasing_pairs (sound : net.Sound) (free : net.ColonFree) (relation : Relation) :
    (net.pairs relation).Pairwise
      (fun e f => comparePairs (net.pathsOf e) (net.pathsOf f) = .lt) := by
  have hsorted : (net.pairs relation).Pairwise
      (fun e f => (comparePairs (net.pathsOf e) (net.pathsOf f)).isLE = true) := by
    refine List.pairwise_mergeSort ?_ ?_ _
    · intro e f k hef hfk
      exact Std.TransCmp.isLE_trans hef hfk
    · intro e f
      show ((comparePairs _ _).isLE || (comparePairs _ _).isLE) = true
      rw [@Std.OrientedCmp.eq_swap _ comparePairs _ (net.pathsOf f) (net.pathsOf e)]
      cases comparePairs (net.pathsOf e) (net.pathsOf f) <;> rfl
  refine (hsorted.and (sound.nodup_pairs relation)).imp_of_mem fun {e f} he hf h => ?_
  obtain ⟨hle, hne⟩ := h
  obtain ⟨he₁, he₂⟩ := sound.ends _ _ _ (mem_pairs.mp he)
  obtain ⟨hf₁, hf₂⟩ := sound.ends _ _ _ (mem_pairs.mp hf)
  have htie : comparePairs (net.pathsOf e) (net.pathsOf f) ≠ .eq := by
    intro h
    have hpaths := (comparePairs_eq_iff (free _ he₁) (free _ hf₁) (free _ he₂) (free _ hf₂)).mp h
    refine hne (Prod.ext ?_ ?_)
    · exact sound.eq_of_pathOf_eq he₁ hf₁ (congrArg Prod.fst hpaths)
    · exact sound.eq_of_pathOf_eq he₂ hf₂ (congrArg Prod.snd hpaths)
  exact Ordering.isLE_iff_eq_lt_or_eq_eq.mp hle |>.resolve_right htie

/-! ## Networks with the same content -/

namespace SameContent

variable (same : SameContent a b) (soundA : a.Sound) (soundB : b.Sound)

include same

theorem colonFree (free : a.ColonFree) : b.ColonFree := by
  intro id hlive
  obtain ⟨node, hnode⟩ := live_iff.mp hlive
  obtain ⟨twin, htwin⟩ := (same.nodes node).mpr ⟨id, hnode⟩
  have hfree := free twin (live_iff.mpr ⟨node, htwin⟩)
  rw [pathOf_of_node? htwin] at hfree
  rw [pathOf_of_node? hnode]
  exact hfree

include soundB

/-- Nodes with one path are equal. -/
theorem node?_eq {i j : NodeId} (hi : a.Live i) (hj : b.Live j) (path : a.pathOf i = b.pathOf j) :
    a.node? i = b.node? j := by
  obtain ⟨node, hnode⟩ := live_iff.mp hi
  obtain ⟨twin, htwin⟩ := (same.nodes node).mp ⟨i, hnode⟩
  have htwinpath : b.pathOf twin = b.pathOf j := by
    rw [← path, pathOf_of_node? htwin, pathOf_of_node? hnode]
  have hj' := soundB.eq_of_pathOf_eq (live_iff.mpr ⟨node, htwin⟩) hj htwinpath
  rw [hnode, ← hj', htwin]

include soundA

theorem isOrphan_eq {i j : NodeId} (hi : a.Live i) (hj : b.Live j) (path : a.pathOf i = b.pathOf j) :
    a.isOrphan i = b.isOrphan j := by
  have horphan : ∀ {net : Network} {id : NodeId}, net.Sound → net.Live id →
      (net.isOrphan id = true ↔ ∀ outer, ¬ net.Tied outer (net.pathOf id) .containment) := by
    intro net id sound hlive
    rw [isOrphan_iff]
    constructor
    · intro h outer htied
      obtain ⟨other, inner, _, hinner, hrelates⟩ := htied
      rw [sound.lookup_pathOf hlive] at hinner
      rw [← Option.some.inj hinner] at hrelates
      exact h other hrelates
    · intro h other hrelates
      refine h (net.pathOf other) ⟨other, id, ?_, sound.lookup_pathOf hlive, hrelates⟩
      exact sound.lookup_pathOf (sound.ends _ _ _ hrelates).1
  rw [Bool.eq_iff_iff, horphan soundA hi, horphan soundB hj, path]
  exact forall_congr' fun outer => not_congr (same.edges _ _ _)

theorem labelOf_eq {i j : NodeId} (hi : a.Live i) (hj : b.Live j) (path : a.pathOf i = b.pathOf j) :
    a.labelOf i = b.labelOf j := by
  unfold labelOf
  rw [same.isOrphan_eq soundA soundB hi hj path, path]

end SameContent

/-- The edges of a network as paths. -/
def edgePaths (net : Network) : List (Path × Path × Relation) :=
  net.edges.entries.map
    (fun entry => (net.pathOf entry.2.source, net.pathOf entry.2.target, entry.2.relation))

theorem Sound.mem_edgePaths (sound : net.Sound) {source target : Path} {relation : Relation} :
    (source, target, relation) ∈ net.edgePaths ↔ net.Tied source target relation := by
  unfold edgePaths
  rw [List.mem_map]
  constructor
  · intro h
    obtain ⟨entry, hentry, hpaths⟩ := h
    obtain ⟨hsource, hrest⟩ := Prod.mk.inj hpaths
    obtain ⟨htarget, hrelation⟩ := Prod.mk.inj hrest
    have hrelates : net.Relates entry.2.source entry.2.target entry.2.relation :=
      List.mem_map_of_mem hentry
    obtain ⟨hlive₁, hlive₂⟩ := sound.ends _ _ _ hrelates
    rw [← hsource, ← htarget, ← hrelation]
    exact ⟨_, _, sound.lookup_pathOf hlive₁, sound.lookup_pathOf hlive₂, hrelates⟩
  · intro h
    obtain ⟨i, j, hi, hj, hrelates⟩ := h
    obtain ⟨id, hmem⟩ := relates_iff.mp hrelates
    refine ⟨(id, ⟨i, j, relation⟩), hmem, ?_⟩
    simp only [sound.pathOf_of_lookup hi, sound.pathOf_of_lookup hj]

/-- Networks whose stored nodes and edges are the same in some order have the same content. -/
theorem sameContent_of_perm (soundA : a.Sound) (soundB : b.Sound)
    (nodes : (a.nodes.entries.map Prod.snd).Perm (b.nodes.entries.map Prod.snd))
    (edges : a.edgePaths.Perm b.edgePaths) : SameContent a b where
  nodes := by
    have hstored : ∀ {net : Network}, net.Sound → ∀ node,
        (∃ id, net.node? id = some node) ↔ node ∈ net.nodes.entries.map Prod.snd := by
      intro net sound node
      simp only [node?, sound.nodes.get?_eq_some_iff, List.mem_map, Prod.exists, exists_eq_right]
    intro node
    rw [hstored soundA, hstored soundB]
    exact nodes.mem_iff
  edges := by
    intro source target relation
    rw [← soundA.mem_edgePaths, ← soundB.mem_edgePaths]
    exact edges.mem_iff

/-! ## The members of listings -/

theorem mem_paths_nodeIds {path : Path} :
    path ∈ net.nodeIds.map net.pathOf ↔ ∃ node, (∃ id, net.node? id = some node) ∧ node.path = path := by
  rw [List.mem_map]
  constructor
  · intro h
    obtain ⟨id, hid, hpath⟩ := h
    obtain ⟨node, hnode⟩ := live_iff.mp (live_of_mem_nodeIds.mp hid)
    exact ⟨node, ⟨id, hnode⟩, (pathOf_of_node? hnode).symm.trans hpath⟩
  · intro h
    obtain ⟨node, ⟨id, hnode⟩, hpath⟩ := h
    exact ⟨id, live_of_mem_nodeIds.mpr (live_iff.mpr ⟨node, hnode⟩), (pathOf_of_node? hnode).trans hpath⟩

theorem mem_paths_ofKind {kind : Kind} {path : Path} :
    path ∈ (net.ofKind kind).map net.pathOf ↔
      ∃ node, (∃ id, net.node? id = some node) ∧ node.kind = kind ∧ node.path = path := by
  unfold ofKind kindOf?
  rw [List.mem_map]
  constructor
  · intro h
    obtain ⟨id, hid, hpath⟩ := h
    obtain ⟨hmem, hkind⟩ := List.mem_filter.mp hid
    obtain ⟨node, hnode⟩ := live_iff.mp (live_of_mem_nodeIds.mp hmem)
    rw [hnode] at hkind
    refine ⟨node, ⟨id, hnode⟩, ?_, (pathOf_of_node? hnode).symm.trans hpath⟩
    exact Option.some.inj (eq_of_beq hkind)
  · intro h
    obtain ⟨node, ⟨id, hnode⟩, hkind, hpath⟩ := h
    refine ⟨id, List.mem_filter.mpr ⟨?_, ?_⟩, (pathOf_of_node? hnode).trans hpath⟩
    · exact live_of_mem_nodeIds.mpr (live_iff.mpr ⟨node, hnode⟩)
    · simp [hnode, hkind]

theorem Sound.mem_paths_pairs (sound : net.Sound) {relation : Relation} {ends : Path × Path} :
    ends ∈ (net.pairs relation).map net.pathsOf ↔ net.Tied ends.1 ends.2 relation := by
  rw [List.mem_map]
  constructor
  · intro h
    obtain ⟨pair, hpair, hends⟩ := h
    have hrelates := mem_pairs.mp hpair
    obtain ⟨hsource, htarget⟩ := sound.ends _ _ _ hrelates
    rw [← hends]
    exact ⟨pair.1, pair.2, sound.lookup_pathOf hsource, sound.lookup_pathOf htarget, hrelates⟩
  · intro h
    obtain ⟨source, target, hsource, htarget, hrelates⟩ := h
    refine ⟨(source, target), mem_pairs.mpr hrelates, Prod.ext ?_ ?_⟩
    · exact sound.pathOf_of_lookup hsource
    · exact sound.pathOf_of_lookup htarget

/-! ## Equal listings and equal texts -/

namespace SameContent

variable (same : SameContent a b) (soundA : a.Sound) (soundB : b.Sound) (free : a.ColonFree)

include same soundA soundB free

theorem paths_nodeIds : b.nodeIds.map b.pathOf = a.nodeIds.map a.pathOf := by
  refine eq_of_increasing (List.pairwise_map.mpr (increasing_nodeIds soundB (same.colonFree free)))
    (List.pairwise_map.mpr (increasing_nodeIds soundA free)) fun path => ?_
  simp only [mem_paths_nodeIds, same.nodes]

theorem paths_ofKind (kind : Kind) :
    (b.ofKind kind).map b.pathOf = (a.ofKind kind).map a.pathOf := by
  refine eq_of_increasing
    (List.pairwise_map.mpr (increasing_ofKind soundB (same.colonFree free) kind))
    (List.pairwise_map.mpr (increasing_ofKind soundA free kind)) fun path => ?_
  simp only [mem_paths_ofKind, same.nodes]

theorem paths_pairs (relation : Relation) :
    (b.pairs relation).map b.pathsOf = (a.pairs relation).map a.pathsOf := by
  refine eq_of_increasing
    (List.pairwise_map.mpr (increasing_pairs soundB (same.colonFree free) relation))
    (List.pairwise_map.mpr (increasing_pairs soundA free relation)) fun ends => ?_
  rw [soundB.mem_paths_pairs, soundA.mem_paths_pairs]
  exact (same.edges _ _ _).symm

/-- What is written for each node of a kind is the same if it is the same for nodes with one path. -/
theorem map_ofKind {γ : Type} {f f' : NodeId → γ} (kind : Kind)
    (agree : ∀ i j, a.Live i → b.Live j → a.pathOf i = b.pathOf j → f i = f' j) :
    (a.ofKind kind).map f = (b.ofKind kind).map f' := by
  refine map_eq_map_of_keys (same.paths_ofKind soundA soundB free kind).symm fun i hi j hj path => ?_
  refine agree i j ?_ ?_ path
  · exact live_of_mem_nodeIds.mp (List.mem_filter.mp hi).1
  · exact live_of_mem_nodeIds.mp (List.mem_filter.mp hj).1

/-- What is written for each edge of a relation is the same if it is the same for the same paths. -/
theorem map_pairs {γ : Type} {f f' : NodeId × NodeId → γ} (relation : Relation)
    (agree : ∀ e e', a.pathsOf e = b.pathsOf e' → f e = f' e') :
    (a.pairs relation).map f = (b.pairs relation).map f' :=
  map_eq_map_of_keys (same.paths_pairs soundA soundB free relation).symm
    fun e _ e' _ paths => agree e e' paths

theorem drawing_eq (name : String) : Drawing.render a name = Drawing.render b name := by
  have hnodes : ∀ comment kind,
      Drawing.nodeSection a comment kind = Drawing.nodeSection b comment kind := by
    intro comment kind
    unfold Drawing.nodeSection
    rw [same.map_ofKind soundA soundB free kind fun i j hi hj path => ?_]
    unfold Drawing.nodeLine Drawing.nodeAttributes
    rw [path, same.node?_eq soundB hi hj path, same.labelOf_eq soundA soundB hi hj path]
  have hedges : ∀ relation, Drawing.edgeSection a relation = Drawing.edgeSection b relation := by
    intro relation
    unfold Drawing.edgeSection
    rw [same.map_pairs soundA soundB free relation fun e e' paths => ?_]
    obtain ⟨hsource, htarget⟩ := Prod.mk.inj paths
    unfold Drawing.edgeLine
    rw [hsource, htarget]
  unfold Drawing.render Drawing.lines
  simp only [hnodes, funext hedges]

theorem snapshot_eq (name : String) : Snapshot.ofNetwork a name = Snapshot.ofNetwork b name := by
  have hnodes : ∀ kind,
      (a.ofKind kind).map (NodeRecord.ofNode a) = (b.ofKind kind).map (NodeRecord.ofNode b) := by
    intro kind
    refine same.map_ofKind soundA soundB free kind fun i j hi hj path => ?_
    unfold NodeRecord.ofNode
    rw [same.node?_eq soundB hi hj path, same.labelOf_eq soundA soundB hi hj path]
  have hedges : ∀ relation,
      (a.pairs relation).map (EdgeRecord.ofPair a) = (b.pairs relation).map (EdgeRecord.ofPair b) := by
    intro relation
    refine same.map_pairs soundA soundB free relation fun e e' paths => ?_
    obtain ⟨hsource, htarget⟩ := Prod.mk.inj paths
    unfold EdgeRecord.ofPair
    rw [hsource, htarget]
  unfold Snapshot.ofNetwork
  simp only [hnodes, hedges]

end SameContent

/-- **What is written depends on the content only.** Paths are ordered as their texts are, which is a
total order of the paths without colons. So if two sound networks with such paths have the same nodes
and join the same paths, their listings of nodes and of edges are strictly increasing and equal path by
path, and both are drawn and written as JSON by the same text. -/
theorem output_determined_by_content :
    (∀ p q : Path, compare p q = compare p.display q.display) ∧
    (∀ p q : Path, compare p q = (compare q p).swap) ∧
    (∀ p q r : Path, (compare p q).isLE = true → (compare q r).isLE = true →
      (compare p r).isLE = true) ∧
    (∀ p q : Path, p.ColonFree → q.ColonFree → (compare p q = .eq ↔ p = q)) ∧
    ∀ a b : Network, a.Sound → b.Sound → a.ColonFree → SameContent a b →
      (a.nodeIds.map a.pathOf).Pairwise (fun p q => compare p q = .lt) ∧
      b.nodeIds.map b.pathOf = a.nodeIds.map a.pathOf ∧
      (∀ kind, ((a.ofKind kind).map a.pathOf).Pairwise (fun p q => compare p q = .lt) ∧
        (b.ofKind kind).map b.pathOf = (a.ofKind kind).map a.pathOf) ∧
      (∀ relation, ((a.pairs relation).map a.pathsOf).Pairwise (fun e f => comparePairs e f = .lt) ∧
        (b.pairs relation).map b.pathsOf = (a.pairs relation).map a.pathsOf) ∧
      ∀ name, Drawing.render a name = Drawing.render b name ∧
        (Snapshot.ofNetwork a name).render = (Snapshot.ofNetwork b name).render := by
  refine ⟨Path.compare_eq_compare_display, fun p q => Std.OrientedCmp.eq_swap,
    fun p q r => Std.TransCmp.isLE_trans, fun p q => Path.compare_eq_iff, ?_⟩
  intro a b soundA soundB free same
  refine ⟨List.pairwise_map.mpr (increasing_nodeIds soundA free),
    same.paths_nodeIds soundA soundB free, fun kind => ?_, fun relation => ?_, fun name => ?_⟩
  · exact ⟨List.pairwise_map.mpr (increasing_ofKind soundA free kind),
      same.paths_ofKind soundA soundB free kind⟩
  · exact ⟨List.pairwise_map.mpr (increasing_pairs soundA free relation),
      same.paths_pairs soundA soundB free relation⟩
  · refine ⟨same.drawing_eq soundA soundB free name, ?_⟩
    rw [same.snapshot_eq soundA soundB free name]

/-- Three files; the second has a class inside a module and uses the module of the third. -/
def threeFiles : List (List Item) :=
  [[.classDecl (.relative ["B"]) none []],
    [.moduleDecl (.relative ["A"])
      [.classDecl (.relative ["C"]) (some (.relative ["B"])) [.mixing .including [.relative ["M"]]]]],
    [.moduleDecl (.relative ["M"]) []]]

theorem output_determined_of_threeFiles :
    (Graph.built [] [] threeFiles).net.pathOf 0 ≠ (Graph.built [] [] threeFiles.reverse).net.pathOf 0 ∧
      (Graph.built [] [] threeFiles).net.Sound ∧ (Graph.built [] [] threeFiles.reverse).net.Sound ∧
      (Graph.built [] [] threeFiles).net.ColonFree ∧
      SameContent (Graph.built [] [] threeFiles).net (Graph.built [] [] threeFiles.reverse).net ∧
      Drawing.render (Graph.built [] [] threeFiles).net "atlas" =
        Drawing.render (Graph.built [] [] threeFiles.reverse).net "atlas" := by
  have hsound : (Graph.built [] [] threeFiles).net.Sound :=
    (Graph.consistent_of_reachable (Graph.reachable_built _ _ _)).sound
  have hsound' : (Graph.built [] [] threeFiles.reverse).net.Sound :=
    (Graph.consistent_of_reachable (Graph.reachable_built _ _ _)).sound
  have hfree : (Graph.built [] [] threeFiles).net.ColonFree := by
    show ∀ id ∈ (Graph.built [] [] threeFiles).net.nodes.ids, _
    decide +kernel
  have hsame := sameContent_of_perm hsound hsound' (by decide +kernel) (by decide +kernel)
  obtain ⟨_, _, _, _, hnetworks⟩ := output_determined_by_content
  obtain ⟨_, _, _, _, htexts⟩ := hnetworks _ _ hsound hsound' hfree hsame
  exact ⟨by decide +kernel, hsound, hsound', hfree, hsame, (htexts "atlas").1⟩

end Network

end ClassAtlas
