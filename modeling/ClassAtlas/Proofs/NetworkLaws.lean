import Mathlib.Data.List.Nodup
import Mathlib.Logic.Relation
import ClassAtlas.Network.Merge
import ClassAtlas.Network.View
import ClassAtlas.Proofs.ArenaLaws

/-!
# Laws of networks

A network is sound (`Network.Sound`) if its index is exactly the inverse of the paths of its nodes,
its edges join nodes that are there, and no edge is a loop, a copy or a second container. Every
elementary change keeps that, and so do the two ways to move a node to another path. For each change
there is one law per view: what it does to the nodes, to the index and to the relations.
-/

namespace ClassAtlas

theorem Path.parent?_eq_some {p outer : Path} (h : p.parent? = some outer) :
    p = outer.child p.name ∧ outer.segments ≠ [] := by
  obtain ⟨segments⟩ := p
  match segments, h with
  | a :: b :: rest, h =>
      have houter : outer = ⟨(a :: b :: rest).dropLast⟩ := (Option.some.inj h).symm
      subst houter
      refine ⟨?_, by simp⟩
      have hlast := List.dropLast_concat_getLast (List.cons_ne_nil a (b :: rest))
      simp only [Path.child, Path.name, Path.mk.injEq]
      conv_lhs => rw [← hlast]
      simp [List.getLastD]

theorem Path.length_of_parent? {p outer : Path} (h : p.parent? = some outer) :
    outer.segments.length < p.segments.length := by
  have hp := (Path.parent?_eq_some h).1
  rw [hp]
  simp

namespace Network

/-! ## Views -/

/-- The identifier names a node. -/
def Live (net : Network) (id : NodeId) : Prop :=
  id ∈ net.nodes.ids

/-- An edge of this relation leads from one node to the other. -/
def Relates (net : Network) (source target : NodeId) (relation : Relation) : Prop :=
  ⟨source, target, relation⟩ ∈ net.edges.entries.map Prod.snd

/-- A path names a node. -/
def Known (net : Network) (path : Path) : Prop :=
  ∃ id, net.lookup path = some id

instance (net : Network) (path : Path) : Decidable (net.Known path) :=
  decidable_of_iff ((net.lookup path).isSome = true) Option.isSome_iff_exists

theorem live_iff {net : Network} {id : NodeId} : net.Live id ↔ ∃ node, net.node? id = some node :=
  net.nodes.mem_ids_iff id

theorem pathOf_of_node? {net : Network} {id : NodeId} {node : Node} (h : net.node? id = some node) :
    net.pathOf id = node.path := by
  simp [pathOf, h]

theorem relates_iff {net : Network} {a b : NodeId} {r : Relation} :
    net.Relates a b r ↔ ∃ id, (id, (⟨a, b, r⟩ : Edge)) ∈ net.edges.entries := by
  simp [Relates]

theorem mem_targets {net : Network} {a b : NodeId} {r : Relation} :
    b ∈ net.targets a r ↔ net.Relates a b r := by
  simp only [targets, outgoing, List.mem_map, List.mem_filter, beq_iff_eq, relates_iff]
  constructor
  · rintro ⟨⟨id, source, target, relation⟩, ⟨⟨hmem, rfl⟩, rfl⟩, rfl⟩
    exact ⟨id, hmem⟩
  · rintro ⟨id, hmem⟩
    exact ⟨(id, ⟨a, b, r⟩), ⟨⟨hmem, rfl⟩, rfl⟩, rfl⟩

theorem mem_sources {net : Network} {a b : NodeId} {r : Relation} :
    a ∈ net.sources b r ↔ net.Relates a b r := by
  simp only [sources, incoming, List.mem_map, List.mem_filter, beq_iff_eq, relates_iff]
  constructor
  · rintro ⟨⟨id, source, target, relation⟩, ⟨⟨hmem, rfl⟩, rfl⟩, rfl⟩
    exact ⟨id, hmem⟩
  · rintro ⟨id, hmem⟩
    exact ⟨(id, ⟨a, b, r⟩), ⟨⟨hmem, rfl⟩, rfl⟩, rfl⟩

theorem hasEdge_iff {net : Network} {a b : NodeId} {r : Relation} :
    net.hasEdge a b r = true ↔ net.Relates a b r := by
  simp only [hasEdge, List.contains_iff_mem, mem_targets]

theorem relates_of_container? {net : Network} {a b : NodeId} (h : net.container? b = some a) :
    net.Relates a b .containment := by
  refine mem_sources.mp ?_
  unfold container? at h
  exact List.mem_of_mem_head? h

theorem container?_eq_none_iff {net : Network} {b : NodeId} :
    net.container? b = none ↔ ∀ a, ¬ net.Relates a b .containment := by
  unfold container?
  rw [List.head?_eq_none_iff, List.eq_nil_iff_forall_not_mem]
  exact forall_congr' fun a => not_congr mem_sources

theorem isIsland_iff {net : Network} {id : NodeId} :
    net.isIsland id = true ↔ ∀ other r, ¬ net.Relates id other r ∧ ¬ net.Relates other id r := by
  simp only [isIsland, outgoing, incoming, Bool.and_eq_true, List.isEmpty_iff,
    List.filter_eq_nil_iff, beq_iff_eq, relates_iff]
  constructor
  · intro h other r
    obtain ⟨hout, hin⟩ := h
    refine ⟨?_, ?_⟩
    · intro hedge
      obtain ⟨edge, hmem⟩ := hedge
      exact hout _ hmem rfl
    · intro hedge
      obtain ⟨edge, hmem⟩ := hedge
      exact hin _ hmem rfl
  · intro h
    refine ⟨?_, ?_⟩
    · intro entry hmem hsource
      exact (h entry.2.target entry.2.relation).1 ⟨entry.1, by rw [← hsource]; exact hmem⟩
    · intro entry hmem htarget
      exact (h entry.2.source entry.2.relation).2 ⟨entry.1, by rw [← htarget]; exact hmem⟩

theorem isOrphan_iff {net : Network} {id : NodeId} :
    net.isOrphan id = true ↔ ∀ other, ¬ net.Relates other id .containment := by
  unfold isOrphan parent?
  rw [Option.isNone_iff_eq_none, List.head?_eq_none_iff, List.eq_nil_iff_forall_not_mem]
  refine forall_congr' fun other => not_congr ?_
  rw [mem_byPath, mem_sources]

/-- What `admits` asks: no loop, no copy, no second container. -/
theorem admits_iff {net : Network} {a b : NodeId} {r : Relation} :
    net.admits a b r = true ↔
      a ≠ b ∧ ¬ net.Relates a b r ∧ (r = .containment → ∀ c, ¬ net.Relates c b .containment) := by
  have hedge : net.hasEdge a b r = false ↔ ¬ net.Relates a b r := by
    rw [← hasEdge_iff, Bool.not_eq_true]
  simp only [admits, Bool.and_eq_true, Bool.or_eq_true, bne_iff_ne, Bool.not_eq_true', hedge,
    Option.isNone_iff_eq_none, container?_eq_none_iff, ne_eq, and_assoc]
  refine and_congr_right fun _ => and_congr_right fun _ => ?_
  constructor
  · rintro (hne | hfree) hr
    · exact absurd hr hne
    · exact hfree
  · intro h
    by_cases hr : r = .containment
    · exact .inr (h hr)
    · exact .inl hr

/-! ## Soundness -/

/-- The index is the inverse of the paths, and the edges are in order. -/
structure Sound (net : Network) : Prop where
  nodes : net.nodes.WellFormed
  edges : net.edges.WellFormed
  keys : (net.index.map Prod.fst).Nodup
  registered : ∀ path id,
    net.lookup path = some id ↔ ∃ node, net.node? id = some node ∧ node.path = path
  ends : ∀ a b r, net.Relates a b r → net.Live a ∧ net.Live b
  distinct : (net.edges.entries.map Prod.snd).Nodup
  loopless : ∀ a r, ¬ net.Relates a a r
  contained : ∀ a b c,
    net.Relates a c .containment → net.Relates b c .containment → a = b

theorem sound_empty : Sound {} := by
  refine ⟨Arena.wellFormed_empty, Arena.wellFormed_empty, by simp, ?_, ?_, by simp, ?_, ?_⟩ <;>
    simp [lookup, node?, Arena.get?, Relates]

namespace Sound

variable {net : Network}

theorem live_of_lookup (sound : net.Sound) {path : Path} {id : NodeId}
    (h : net.lookup path = some id) : net.Live id := by
  obtain ⟨node, hnode, _⟩ := (sound.registered path id).mp h
  exact live_iff.mpr ⟨node, hnode⟩

theorem pathOf_of_lookup (sound : net.Sound) {path : Path} {id : NodeId}
    (h : net.lookup path = some id) : net.pathOf id = path := by
  obtain ⟨node, hnode, hpath⟩ := (sound.registered path id).mp h
  rw [pathOf_of_node? hnode, hpath]

/-- A node has one path. -/
theorem path_inj (sound : net.Sound) {p q : Path} {id : NodeId} (hp : net.lookup p = some id)
    (hq : net.lookup q = some id) : p = q := by
  rw [← sound.pathOf_of_lookup hp, sound.pathOf_of_lookup hq]

theorem lookup_pathOf (sound : net.Sound) {id : NodeId} (h : net.Live id) :
    net.lookup (net.pathOf id) = some id := by
  obtain ⟨node, hnode⟩ := live_iff.mp h
  exact (sound.registered _ id).mpr ⟨node, hnode, (pathOf_of_node? hnode).symm⟩

/-- No two nodes have the same path. -/
theorem eq_of_pathOf_eq (sound : net.Sound) {a b : NodeId} (ha : net.Live a) (hb : net.Live b)
    (h : net.pathOf a = net.pathOf b) : a = b := by
  have hla := sound.lookup_pathOf ha
  rw [h, sound.lookup_pathOf hb] at hla
  exact (Option.some.inj hla).symm

/-- The index has one entry for each node. -/
theorem length_index (sound : net.Sound) : net.index.length = net.nodes.size := by
  have hlookup : ∀ path id, (path, id) ∈ net.index ↔ net.lookup path = some id := fun path id =>
    (Assoc.lookup_eq_some_iff_mem sound.keys).symm
  have hnodup : (net.index.map Prod.snd).Nodup := by
    have hpairs : net.index.Nodup := List.Nodup.of_map _ sound.keys
    refine hpairs.map_on ?_
    rintro ⟨p, i⟩ hp ⟨q, j⟩ hq hij
    have hij' : i = j := hij
    subst hij'
    have hi := sound.pathOf_of_lookup ((hlookup p i).mp hp)
    have hj := sound.pathOf_of_lookup ((hlookup q i).mp hq)
    rw [← hi, ← hj]
  have hmem : ∀ id, id ∈ net.index.map Prod.snd ↔ id ∈ net.nodes.ids := by
    intro id
    constructor
    · intro h
      obtain ⟨⟨path, other⟩, hin, rfl⟩ := List.mem_map.mp h
      exact sound.live_of_lookup ((hlookup path other).mp hin)
    · intro h
      exact List.mem_map.mpr ⟨(net.pathOf id, id), (hlookup _ _).mpr (sound.lookup_pathOf h), rfl⟩
  have hperm := (List.perm_ext_iff_of_nodup hnodup sound.nodes.ids_nodup).mpr hmem
  rw [net.nodes.size_eq_length_ids, ← hperm.length_eq, List.length_map]

/-- Edges that are told apart by one of their ends have ends without copies. -/
theorem nodup_ends (sound : net.Sound) {entries : List (Nat × Edge)} (selected : Edge → NodeId)
    (sub : entries.Sublist net.edges.entries)
    (apart : ∀ first ∈ entries, ∀ second ∈ entries, selected first.2 = selected second.2 →
      first.2 = second.2) : (entries.map (fun entry => selected entry.2)).Nodup := by
  have hnodup := sound.distinct.sublist (sub.map Prod.snd)
  have hmap : entries.map (fun entry => selected entry.2) =
      (entries.map Prod.snd).map selected := by
    simp
  rw [hmap]
  refine hnodup.map_on ?_
  intro first hfirst second hsecond hend
  obtain ⟨entry₁, hentry₁, rfl⟩ := List.mem_map.mp hfirst
  obtain ⟨entry₂, hentry₂, rfl⟩ := List.mem_map.mp hsecond
  exact apart entry₁ hentry₁ entry₂ hentry₂ hend

/-- A node is listed once among what another one is related to. -/
theorem nodup_targets (sound : net.Sound) (a : NodeId) (r : Relation) : (net.targets a r).Nodup := by
  refine sound.nodup_ends (fun edge => edge.target) (List.filter_sublist.trans List.filter_sublist) ?_
  -- all these edges leave `a` with the relation `r`, so their targets tell them apart
  rintro ⟨_, s₁, t₁, r₁⟩ h₁ ⟨_, s₂, t₂, r₂⟩ h₂ htarget
  simp only [outgoing, List.mem_filter, beq_iff_eq] at h₁ h₂ htarget
  simp [h₁.1.2, h₁.2, h₂.1.2, h₂.2, htarget]

theorem nodup_sources (sound : net.Sound) (b : NodeId) (r : Relation) : (net.sources b r).Nodup := by
  refine sound.nodup_ends (fun edge => edge.source) (List.filter_sublist.trans List.filter_sublist) ?_
  rintro ⟨_, s₁, t₁, r₁⟩ h₁ ⟨_, s₂, t₂, r₂⟩ h₂ hsource
  simp only [incoming, List.mem_filter, beq_iff_eq] at h₁ h₂ hsource
  simp [h₁.1.2, h₁.2, h₂.1.2, h₂.2, hsource]

end Sound

/-! ## Adding a node -/

variable {net : Network}

theorem node?_addNode (net : Network) (node : Node) (id : NodeId) :
    (net.addNode node).node? id = if id = net.nextId then some node else net.node? id := by
  by_cases h : id = net.nextId
  · rw [if_pos h, h]
    exact net.nodes.get?_insert_self node
  · rw [if_neg h]
    exact net.nodes.get?_insert_of_ne node h

theorem lookup_addNode (net : Network) (node : Node) (path : Path) :
    (net.addNode node).lookup path = if path = node.path then some net.nextId else net.lookup path :=
  lookup_register _ _ _ _

@[simp] theorem relates_addNode {node : Node} {a b : NodeId} {r : Relation} :
    (net.addNode node).Relates a b r ↔ net.Relates a b r := Iff.rfl

theorem live_addNode {node : Node} {id : NodeId} :
    (net.addNode node).Live id ↔ id = net.nextId ∨ net.Live id := by
  show id ∈ (net.nodes.insert node).ids ↔ _
  rw [Arena.ids_insert, List.mem_cons]
  rfl

theorem keys_register {path : Path} {id : NodeId} (keys : (net.index.map Prod.fst).Nodup) :
    ((net.register path id).index.map Prod.fst).Nodup := by
  show (path :: (net.index.filter (fun entry => entry.1 != path)).map Prod.fst).Nodup
  refine List.nodup_cons.mpr ⟨?_, keys.sublist (List.filter_sublist.map _)⟩
  intro h
  obtain ⟨entry, hentry, rfl⟩ := List.mem_map.mp h
  simp at hentry

namespace Sound

theorem nextId_not_live (sound : net.Sound) : ¬ net.Live net.nextId :=
  sound.nodes.nextId_unused

theorem addNode (sound : net.Sound) {node : Node} (fresh : net.lookup node.path = none) :
    (net.addNode node).Sound where
  nodes := sound.nodes.insert node
  edges := sound.edges
  keys := keys_register sound.keys
  registered := by
    intro path id
    rw [lookup_addNode, node?_addNode]
    by_cases hid : id = net.nextId
    · -- the new node has its own path, and no path named its identifier before
      have hnone : net.lookup path ≠ some id := fun h =>
        sound.nextId_not_live (hid ▸ sound.live_of_lookup h)
      rw [if_pos hid]
      by_cases hpath : path = node.path
      · simp [hid, hpath]
      · have hpath' : ¬ node.path = path := fun h => hpath h.symm
        rw [if_neg hpath]
        simp [hnone, hpath']
    · by_cases hpath : path = node.path
      · have hother : ¬ ∃ other, net.node? id = some other ∧ other.path = path := by
          intro h
          have hfound := (sound.registered path id).mpr h
          rw [hpath, fresh] at hfound
          exact absurd hfound (by simp)
        have hid' : ¬ net.nextId = id := fun h => hid h.symm
        rw [if_pos hpath, if_neg hid]
        exact ⟨fun h => absurd (Option.some.inj h) hid', fun h => absurd h hother⟩
      · rw [if_neg hpath, if_neg hid]
        exact sound.registered path id
  ends := by
    intro a b r h
    obtain ⟨ha, hb⟩ := sound.ends a b r h
    exact ⟨live_addNode.mpr (.inr ha), live_addNode.mpr (.inr hb)⟩
  distinct := sound.distinct
  loopless := sound.loopless
  contained := sound.contained

end Sound

/-! ## Changing a node in place -/

theorem node?_modifyNode (net : Network) (id other : NodeId) (f : Node → Node) :
    (net.modifyNode id f).node? other =
      if other = id then (net.node? other).map f else net.node? other :=
  net.nodes.get?_modify id other f

@[simp] theorem live_modifyNode {id other : NodeId} {f : Node → Node} :
    (net.modifyNode id f).Live other ↔ net.Live other := by
  show other ∈ (net.nodes.modify id f).ids ↔ other ∈ net.nodes.ids
  rw [Arena.ids_modify]

@[simp] theorem relates_modifyNode {id a b : NodeId} {f : Node → Node} {r : Relation} :
    (net.modifyNode id f).Relates a b r ↔ net.Relates a b r := Iff.rfl

/-- Two networks with the same nodes but for what a path does not tell. -/
theorem exists_node_modifyNode {id other : NodeId} {f : Node → Node} {path : Path}
    (keeps : ∀ node, (f node).path = node.path) :
    (∃ node, (net.modifyNode id f).node? other = some node ∧ node.path = path) ↔
      ∃ node, net.node? other = some node ∧ node.path = path := by
  rw [node?_modifyNode]
  by_cases h : other = id
  · rw [if_pos h]
    cases net.node? other with
    | none => simp
    | some node => simp [keeps]
  · rw [if_neg h]

theorem Sound.modifyNode (sound : net.Sound) {id : NodeId} {f : Node → Node}
    (keeps : ∀ node, (f node).path = node.path) : (net.modifyNode id f).Sound where
  nodes := sound.nodes.modify id f
  edges := sound.edges
  keys := sound.keys
  registered := by
    intro path other
    rw [exists_node_modifyNode keeps]
    exact sound.registered path other
  ends := by
    intro a b r h
    rw [live_modifyNode, live_modifyNode]
    exact sound.ends a b r h
  distinct := sound.distinct
  loopless := sound.loopless
  contained := sound.contained

/-! ## Adding an edge -/

theorem relates_addEdge {s t a b : NodeId} {q r : Relation} :
    (net.addEdge s t q).Relates a b r ↔ (a = s ∧ b = t ∧ r = q) ∨ net.Relates a b r := by
  unfold Relates addEdge
  rw [Arena.entries_insert, List.map_cons, List.mem_cons]
  simp

theorem relates_link {s t a b : NodeId} {q r : Relation} :
    (net.link s t q).Relates a b r ↔
      (net.admits s t q = true ∧ a = s ∧ b = t ∧ r = q) ∨ net.Relates a b r := by
  unfold link
  by_cases h : net.admits s t q = true
  · rw [if_pos h, relates_addEdge]
    simp [h]
  · rw [if_neg h]
    simp [h]

@[simp] theorem live_link {s t id : NodeId} {q : Relation} :
    (net.link s t q).Live id ↔ net.Live id := by
  unfold Live
  rw [nodes_link]

@[simp] theorem node?_link (net : Network) (s t id : NodeId) (q : Relation) :
    (net.link s t q).node? id = net.node? id := by
  unfold node?
  rw [nodes_link]

@[simp] theorem lookup_link (net : Network) (s t : NodeId) (q : Relation) (path : Path) :
    (net.link s t q).lookup path = net.lookup path := by
  unfold lookup
  rw [index_link]

theorem Sound.link (sound : net.Sound) {s t : NodeId} {q : Relation} (hs : net.Live s)
    (ht : net.Live t) : (net.link s t q).Sound := by
  by_cases h : net.admits s t q = true
  · obtain ⟨hloop, hcopy, hsecond⟩ := admits_iff.mp h
    have heq : net.link s t q = net.addEdge s t q := by
      unfold Network.link
      rw [if_pos h]
    rw [heq]
    refine ⟨sound.nodes, sound.edges.insert _, sound.keys, sound.registered, ?_, ?_, ?_, ?_⟩
    · intro a b r hab
      rcases relates_addEdge.mp hab with ⟨rfl, rfl, _⟩ | hold
      · exact ⟨hs, ht⟩
      · exact sound.ends a b r hold
    · unfold addEdge
      rw [Arena.entries_insert, List.map_cons]
      exact List.nodup_cons.mpr ⟨hcopy, sound.distinct⟩
    · intro a r haa
      rcases relates_addEdge.mp haa with ⟨rfl, ht', _⟩ | hold
      · exact hloop ht'
      · exact sound.loopless a r hold
    · intro a b c hac hbc
      rcases relates_addEdge.mp hac with ⟨rfl, rfl, hq⟩ | holdA
      · rcases relates_addEdge.mp hbc with ⟨rfl, _, _⟩ | holdB
        · rfl
        · exact absurd holdB (hsecond hq.symm b)
      · rcases relates_addEdge.mp hbc with ⟨rfl, rfl, hq⟩ | holdB
        · exact absurd holdA (hsecond hq.symm a)
        · exact sound.contained a b c holdA holdB
  · have heq : net.link s t q = net := by
      unfold Network.link
      rw [if_neg h]
    rw [heq]
    exact sound

/-! ## Removing edges -/

theorem relates_removeEdges {ids : List Nat} {a b : NodeId} {r : Relation} :
    (net.removeEdges ids).Relates a b r ↔
      ∃ id, (id, (⟨a, b, r⟩ : Edge)) ∈ net.edges.entries ∧ id ∉ ids := by
  unfold Relates removeEdges
  rw [Arena.entries_foldl_erase]
  simp [List.mem_filter]

theorem relates_of_removeEdges {ids : List Nat} {a b : NodeId} {r : Relation}
    (h : (net.removeEdges ids).Relates a b r) : net.Relates a b r := by
  obtain ⟨id, hmem, _⟩ := relates_removeEdges.mp h
  exact relates_iff.mpr ⟨id, hmem⟩

theorem Sound.removeEdges (sound : net.Sound) (ids : List Nat) : (net.removeEdges ids).Sound where
  nodes := sound.nodes
  edges := sound.edges.foldl_erase ids
  keys := sound.keys
  registered := sound.registered
  ends a b r h := sound.ends a b r (relates_of_removeEdges h)
  distinct := by
    unfold Network.removeEdges
    rw [Arena.entries_foldl_erase]
    exact sound.distinct.sublist (List.filter_sublist.map _)
  loopless a r h := sound.loopless a r (relates_of_removeEdges h)
  contained a b c hac hbc :=
    sound.contained a b c (relates_of_removeEdges hac) (relates_of_removeEdges hbc)

/-! ## Removing a node -/

theorem removeNode_of_not_live {id : NodeId} (h : ¬ net.Live id) : net.removeNode id = net := by
  unfold removeNode
  cases hnode : net.node? id with
  | none => rfl
  | some node => exact absurd (live_iff.mpr ⟨node, hnode⟩) h

theorem node?_removeNode (net : Network) (id other : NodeId) :
    (net.removeNode id).node? other = if other = id then none else net.node? other := by
  unfold removeNode
  cases hnode : net.node? id with
  | none =>
      by_cases h : other = id
      · rw [if_pos h, h, hnode]
      · rw [if_neg h]
  | some node => exact net.nodes.get?_erase id other

theorem live_removeNode {id other : NodeId} :
    (net.removeNode id).Live other ↔ other ≠ id ∧ net.Live other := by
  rw [live_iff, live_iff, node?_removeNode]
  by_cases h : other = id <;> simp [h]

theorem lookup_removeNode {id : NodeId} {node : Node} (hnode : net.node? id = some node)
    (path : Path) :
    (net.removeNode id).lookup path = if path = node.path then none else net.lookup path := by
  unfold removeNode
  rw [hnode]
  exact lookup_unregister _ _ _

/-- Identifiers of edges are distinct, so no edge goes but those at the node. -/
theorem entries_removeEdges_at (wf : net.edges.WellFormed) (id : NodeId) :
    (net.removeEdges ((net.outgoing id ++ net.incoming id).map Prod.fst)).edges.entries =
      net.edges.entries.filter (fun entry => entry.2.source != id && entry.2.target != id) := by
  unfold removeEdges
  rw [Arena.entries_foldl_erase]
  refine List.filter_congr fun entry hentry => ?_
  have hgone : entry.1 ∈ (net.outgoing id ++ net.incoming id).map Prod.fst ↔
      entry.2.source = id ∨ entry.2.target = id := by
    constructor
    · intro h
      obtain ⟨other, hother, hsame⟩ := List.mem_map.mp h
      have hat : other ∈ net.edges.entries ∧ (other.2.source = id ∨ other.2.target = id) := by
        rcases List.mem_append.mp hother with h | h
        · have h' := List.mem_filter.mp h
          exact ⟨h'.1, .inl (by simpa using h'.2)⟩
        · have h' := List.mem_filter.mp h
          exact ⟨h'.1, .inr (by simpa using h'.2)⟩
      -- the two entries have the same identifier, so they hold the same edge
      have hfound := (wf.get?_eq_some_iff other.1 other.2).mpr hat.1
      rw [hsame, (wf.get?_eq_some_iff entry.1 entry.2).mpr hentry] at hfound
      rw [Option.some.inj hfound]
      exact hat.2
    · intro h
      refine List.mem_map_of_mem (List.mem_append.mpr ?_)
      rcases h with h | h
      · exact .inl (List.mem_filter.mpr ⟨hentry, by simpa using h⟩)
      · exact .inr (List.mem_filter.mpr ⟨hentry, by simpa using h⟩)
  rw [Bool.eq_iff_iff]
  simp only [Bool.not_eq_true', List.contains_eq_mem, decide_eq_false_iff_not, hgone,
    Bool.and_eq_true, bne_iff_ne, not_or]

/-- Removing a node removes exactly the edges at it. -/
theorem Sound.relates_removeNode (sound : net.Sound) {id a b : NodeId} {r : Relation} :
    (net.removeNode id).Relates a b r ↔ net.Relates a b r ∧ a ≠ id ∧ b ≠ id := by
  cases hnode : net.node? id with
  | none =>
      have hdead : ¬ net.Live id := by
        rw [live_iff, hnode]
        simp
      rw [removeNode_of_not_live hdead]
      refine ⟨fun h => ⟨h, ?_, ?_⟩, fun h => h.1⟩
      · rintro rfl
        exact hdead (sound.ends a b r h).1
      · rintro rfl
        exact hdead (sound.ends a b r h).2
  | some node =>
      have hentries : (net.removeNode id).edges.entries =
          (net.removeEdges ((net.outgoing id ++ net.incoming id).map Prod.fst)).edges.entries := by
        unfold Network.removeNode
        rw [hnode]
        rfl
      unfold Relates
      rw [hentries, entries_removeEdges_at sound.edges]
      simp only [List.mem_map, List.mem_filter, Bool.and_eq_true, bne_iff_ne]
      constructor
      · intro h
        obtain ⟨entry, ⟨hmem, hends⟩, hedge⟩ := h
        rw [hedge] at hends
        exact ⟨⟨entry, hmem, hedge⟩, hends⟩
      · intro h
        obtain ⟨⟨entry, hmem, hedge⟩, hends⟩ := h
        exact ⟨entry, ⟨hmem, by rw [hedge]; exact hends⟩, hedge⟩

theorem Sound.removeNode (sound : net.Sound) (id : NodeId) : (net.removeNode id).Sound := by
  cases hnode : net.node? id with
  | none =>
      have hdead : ¬ net.Live id := by
        rw [live_iff, hnode]
        simp
      rw [removeNode_of_not_live hdead]
      exact sound
  | some node =>
      have hbare := sound.removeEdges ((net.outgoing id ++ net.incoming id).map Prod.fst)
      have heq : net.removeNode id =
          { net.removeEdges ((net.outgoing id ++ net.incoming id).map Prod.fst) with
            nodes := net.nodes.erase id }.unregister node.path := by
        unfold Network.removeNode
        rw [hnode]
        rfl
      refine ⟨?_, ?_, ?_, ?_, ?_, ?_, ?_, ?_⟩
      · rw [heq]
        exact sound.nodes.erase id
      · rw [heq]
        exact hbare.edges
      · rw [heq]
        exact sound.keys.sublist (List.filter_sublist.map _)
      · intro path other
        rw [lookup_removeNode hnode, node?_removeNode]
        by_cases hother : other = id
        · -- the removed node's path was the only one that named it
          rw [if_pos hother]
          by_cases hpath : path = node.path
          · simp [hpath]
          · have hno : net.lookup path ≠ some other := by
              intro h
              obtain ⟨found, hfound, hsame⟩ := (sound.registered path other).mp h
              rw [hother, hnode] at hfound
              exact hpath (by rw [← hsame, Option.some.inj hfound])
            rw [if_neg hpath]
            simp [hno]
        · rw [if_neg hother]
          by_cases hpath : path = node.path
          · have hself : net.lookup path = some id :=
              (sound.registered path id).mpr ⟨node, hnode, hpath.symm⟩
            have hne : ¬ id = other := fun h => hother h.symm
            rw [if_pos hpath, ← sound.registered path other, hself]
            simp [hne]
          · rw [if_neg hpath]
            exact sound.registered path other
      · intro a b r h
        obtain ⟨hab, ha, hb⟩ := sound.relates_removeNode.mp h
        obtain ⟨hla, hlb⟩ := sound.ends a b r hab
        exact ⟨live_removeNode.mpr ⟨ha, hla⟩, live_removeNode.mpr ⟨hb, hlb⟩⟩
      · rw [heq]
        exact hbare.distinct
      · intro a r h
        exact sound.loopless a r (sound.relates_removeNode.mp h).1
      · intro a b c hac hbc
        exact sound.contained a b c (sound.relates_removeNode.mp hac).1
          (sound.relates_removeNode.mp hbc).1

end Network

end ClassAtlas
