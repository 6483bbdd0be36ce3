import ClassAtlas.Proofs.NetworkLaws

/-!
# Parts of a network

The part of a network that lies in a set of nodes (`Network.induced`) has these nodes as they are, all
edges between them and their entries in the index. Removing nodes leaves such a part: after any number
of removals what is left is the part that lies in the surviving nodes (`Network.Remnant`).

This rests on less than soundness. The index has to be exact and edges have to join nodes that are there
(`Network.Indexed`); loops, copies of edges and second containers do no harm.
-/

namespace ClassAtlas

/-! ## Selecting entries -/

namespace Assoc

variable {α β : Type} [DecidableEq α]

theorem lookup_filter_keys (keep : α → Bool) (key : α) (entries : List (α × β)) :
    (entries.filter (fun entry => keep entry.1)).lookup key =
      if keep key = true then entries.lookup key else none := by
  induction entries with
  | nil => simp
  | cons entry rest ih =>
      obtain ⟨k, value⟩ := entry
      by_cases hk : keep k = true
      · -- the first entry stays
        have hkept : ((k, value) :: rest).filter (fun entry => keep entry.1) =
            (k, value) :: rest.filter (fun entry => keep entry.1) :=
          List.filter_cons_of_pos hk
        rw [hkept, lookup_cons, lookup_cons, ih]
        by_cases h : key = k <;> simp [h, hk]
      · -- the first entry goes, and its key is not kept
        have hgone : ((k, value) :: rest).filter (fun entry => keep entry.1) =
            rest.filter (fun entry => keep entry.1) :=
          List.filter_cons_of_neg hk
        rw [hgone, lookup_cons, ih]
        by_cases h : key = k <;> simp [h, hk]

end Assoc

namespace Arena

variable {α : Type}

/-- The arena with some of its entries. No identifier is freed. -/
def restrict (a : Arena α) (keep : Nat → α → Bool) : Arena α :=
  { a with entries := a.entries.filter (fun entry => keep entry.1 entry.2) }

theorem WellFormed.restrict {a : Arena α} (wf : a.WellFormed) (keep : Nat → α → Bool) :
    (a.restrict keep).WellFormed := by
  have hsub : (a.restrict keep).ids.Sublist a.ids := List.filter_sublist.map _
  refine ⟨wf.ids_nodup.sublist hsub, ?_, wf.free_nodup, wf.free_lt, ?_⟩
  · intro id hid
    exact wf.ids_lt id (hsub.subset hid)
  · intro id hfree hid
    exact wf.free_unused id hfree (hsub.subset hid)

end Arena

namespace Network

variable {net other third : Network} {keep : NodeId → Bool}

/-! ## Exact indexes -/

/-- The index is exactly the inverse of the paths of the nodes, and edges join nodes that are there. -/
structure Indexed (net : Network) : Prop where
  nodes : net.nodes.WellFormed
  edges : net.edges.WellFormed
  keys : (net.index.map Prod.fst).Nodup
  registered : ∀ path id,
    net.lookup path = some id ↔ ∃ node, net.node? id = some node ∧ node.path = path
  ends : ∀ a b r, net.Relates a b r → net.Live a ∧ net.Live b

theorem Sound.indexed (sound : net.Sound) : net.Indexed :=
  ⟨sound.nodes, sound.edges, sound.keys, sound.registered, sound.ends⟩

namespace Indexed

theorem mem_index (indexed : net.Indexed) {path : Path} {id : NodeId} :
    (path, id) ∈ net.index ↔ ∃ node, net.node? id = some node ∧ node.path = path := by
  rw [← indexed.registered]
  exact (Assoc.lookup_eq_some_iff_mem indexed.keys).symm

theorem live_of_mem_index (indexed : net.Indexed) {entry : Path × NodeId} (h : entry ∈ net.index) :
    net.Live entry.2 := by
  obtain ⟨node, hnode, _⟩ := indexed.mem_index.mp h
  exact live_iff.mpr ⟨node, hnode⟩

theorem live_of_mem_edges (indexed : net.Indexed) {entry : Nat × Edge}
    (h : entry ∈ net.edges.entries) : net.Live entry.2.source ∧ net.Live entry.2.target :=
  indexed.ends _ _ entry.2.relation (List.mem_map_of_mem h)

end Indexed

/-! ## Networks with the same content -/

/-- Two networks that differ at most in the identifiers that they would give out next. -/
structure Alike (net other : Network) : Prop where
  nodes : net.nodes.entries = other.nodes.entries
  edges : net.edges.entries = other.edges.entries
  index : net.index = other.index

namespace Alike

theorem symm (alike : net.Alike other) : other.Alike net :=
  ⟨alike.nodes.symm, alike.edges.symm, alike.index.symm⟩

theorem trans (first : net.Alike other) (second : other.Alike third) : net.Alike third :=
  ⟨first.nodes.trans second.nodes, first.edges.trans second.edges, first.index.trans second.index⟩

theorem node? (alike : net.Alike other) (id : NodeId) : net.node? id = other.node? id := by
  unfold Network.node? Arena.get?
  rw [alike.nodes]

theorem lookup (alike : net.Alike other) (path : Path) : net.lookup path = other.lookup path := by
  unfold Network.lookup
  rw [alike.index]

theorem live_iff (alike : net.Alike other) {id : NodeId} : net.Live id ↔ other.Live id := by
  unfold Live Arena.ids
  rw [alike.nodes]

theorem relates_iff (alike : net.Alike other) {a b : NodeId} {r : Relation} :
    net.Relates a b r ↔ other.Relates a b r := by
  unfold Relates
  rw [alike.edges]

end Alike

/-- An exact index stays exact in a network of the same content whose identifiers are in order. -/
theorem Indexed.of_alike (indexed : other.Indexed) (alike : net.Alike other)
    (nodes : net.nodes.WellFormed) (edges : net.edges.WellFormed) : net.Indexed where
  nodes := nodes
  edges := edges
  keys := by
    rw [alike.index]
    exact indexed.keys
  registered := by
    intro path id
    rw [alike.lookup, alike.node?]
    exact indexed.registered path id
  ends := by
    intro a b r h
    rw [alike.live_iff, alike.live_iff]
    exact indexed.ends a b r (alike.relates_iff.mp h)

/-! ## The part that lies in a set of nodes -/

/-- The nodes of a set as they are, the edges between them, and their entries in the index. -/
def induced (net : Network) (keep : NodeId → Bool) : Network where
  nodes := net.nodes.restrict (fun id _ => keep id)
  edges := net.edges.restrict (fun _ edge => keep edge.source && keep edge.target)
  index := net.index.filter (fun entry => keep entry.2)

theorem node?_induced (net : Network) (keep : NodeId → Bool) (id : NodeId) :
    (net.induced keep).node? id = if keep id = true then net.node? id else none :=
  Assoc.lookup_filter_keys keep id net.nodes.entries

theorem live_induced {id : NodeId} : (net.induced keep).Live id ↔ net.Live id ∧ keep id = true := by
  rw [live_iff, live_iff, node?_induced]
  by_cases h : keep id = true <;> simp [h]

theorem relates_induced {a b : NodeId} {r : Relation} :
    (net.induced keep).Relates a b r ↔ net.Relates a b r ∧ keep a = true ∧ keep b = true := by
  rw [relates_iff, relates_iff]
  show (∃ id, _ ∈ net.edges.entries.filter _) ↔ _
  simp only [List.mem_filter, Bool.and_eq_true]
  constructor
  · intro h
    obtain ⟨id, hmem, hends⟩ := h
    exact ⟨⟨id, hmem⟩, hends⟩
  · intro h
    obtain ⟨⟨id, hmem⟩, hends⟩ := h
    exact ⟨id, hmem, hends⟩

theorem Alike.induced (alike : net.Alike other) (keep : NodeId → Bool) :
    (net.induced keep).Alike (other.induced keep) where
  nodes := congrArg (List.filter _) alike.nodes
  edges := congrArg (List.filter _) alike.edges
  index := congrArg (List.filter _) alike.index

/-- The part of a part lies in both sets. -/
theorem induced_induced (net : Network) (first second : NodeId → Bool) :
    ((net.induced first).induced second).Alike (net.induced fun id => first id && second id) where
  nodes := by
    show List.filter _ (List.filter _ _) = List.filter _ _
    rw [List.filter_filter]
    exact List.filter_congr fun entry _ => Bool.and_comm _ _
  edges := by
    show List.filter _ (List.filter _ _) = List.filter _ _
    rw [List.filter_filter]
    refine List.filter_congr fun entry _ => ?_
    show (second entry.2.source && second entry.2.target &&
        (first entry.2.source && first entry.2.target)) =
      (first entry.2.source && second entry.2.source &&
        (first entry.2.target && second entry.2.target))
    rw [Bool.and_comm (second entry.2.source && second entry.2.target), Bool.and_assoc,
      Bool.and_assoc, Bool.and_left_comm (first entry.2.target)]
  index := by
    show List.filter _ (List.filter _ _) = List.filter _ _
    rw [List.filter_filter]
    exact List.filter_congr fun entry _ => Bool.and_comm _ _

namespace Indexed

/-- Only the nodes that are there matter for the part that lies in a set. -/
theorem induced_congr (indexed : net.Indexed) {first second : NodeId → Bool}
    (same : ∀ id, net.Live id → first id = second id) :
    (net.induced first).Alike (net.induced second) where
  nodes := by
    refine List.filter_congr fun entry hentry => ?_
    exact same entry.1 (List.mem_map_of_mem hentry)
  edges := by
    refine List.filter_congr fun entry hentry => ?_
    obtain ⟨hsource, htarget⟩ := indexed.live_of_mem_edges hentry
    simp only
    rw [same _ hsource, same _ htarget]
  index := by
    refine List.filter_congr fun entry hentry => ?_
    exact same entry.2 (indexed.live_of_mem_index hentry)

/-- The part that lies in all nodes is the whole. -/
theorem induced_all (indexed : net.Indexed) (all : ∀ id, net.Live id → keep id = true) :
    net.Alike (net.induced keep) := by
  have htrue : net.Alike (net.induced fun _ => true) := by
    refine ⟨?_, ?_, ?_⟩ <;>
      exact (List.filter_eq_self.mpr fun _ _ => rfl).symm
  exact htrue.trans (indexed.induced_congr fun id h => (all id h).symm)

/-- Parts of a network have an exact index. -/
theorem induced (indexed : net.Indexed) (keep : NodeId → Bool) : (net.induced keep).Indexed where
  nodes := indexed.nodes.restrict fun id _ => keep id
  edges := indexed.edges.restrict fun _ edge => keep edge.source && keep edge.target
  keys := indexed.keys.sublist (List.filter_sublist.map _)
  registered := by
    intro path id
    have hkeys : ((net.induced keep).index.map Prod.fst).Nodup :=
      indexed.keys.sublist (List.filter_sublist.map _)
    unfold Network.lookup
    rw [Assoc.lookup_eq_some_iff_mem hkeys]
    show (path, id) ∈ net.index.filter _ ↔ _
    rw [List.mem_filter, indexed.mem_index, node?_induced]
    by_cases h : keep id = true <;> simp [h]
  ends := by
    intro a b r h
    obtain ⟨hab, ha, hb⟩ := relates_induced.mp h
    obtain ⟨halive, hblive⟩ := indexed.ends a b r hab
    exact ⟨live_induced.mpr ⟨halive, ha⟩, live_induced.mpr ⟨hblive, hb⟩⟩

/-- What is left without one node is the part that lies in the others. -/
theorem removeNode_alike (indexed : net.Indexed) (id : NodeId) :
    (net.removeNode id).Alike (net.induced fun other => other != id) := by
  cases hnode : net.node? id with
  | none =>
      -- there is no such node, and so there is nothing at it
      have hdead : ¬ net.Live id := by
        rw [live_iff, hnode]
        simp
      rw [removeNode_of_not_live hdead]
      refine indexed.induced_all fun other hother => ?_
      rw [bne_iff_ne]
      intro h
      exact hdead (h ▸ hother)
  | some node =>
      have heq : net.removeNode id =
          { net.removeEdges ((net.outgoing id ++ net.incoming id).map Prod.fst) with
            nodes := net.nodes.erase id }.unregister node.path := by
        unfold Network.removeNode
        rw [hnode]
        rfl
      rw [heq]
      refine ⟨Arena.entries_erase net.nodes id, entries_removeEdges_at indexed.edges id, ?_⟩
      show net.index.filter _ = net.index.filter _
      -- the index names the node by its path and by no other
      refine List.filter_congr fun entry hentry => ?_
      obtain ⟨found, hfound, hpath⟩ := indexed.mem_index.mp hentry
      rw [Bool.eq_iff_iff, bne_iff_ne, bne_iff_ne, not_iff_not]
      constructor
      · intro h
        have hself := (indexed.registered node.path id).mpr ⟨node, hnode, rfl⟩
        have hother := (indexed.registered entry.1 entry.2).mpr ⟨found, hfound, hpath⟩
        rw [h, hself] at hother
        exact (Option.some.inj hother).symm
      · intro h
        rw [h, hnode] at hfound
        rw [← hpath, ← Option.some.inj hfound]

theorem removeNode (indexed : net.Indexed) (id : NodeId) : (net.removeNode id).Indexed := by
  refine (indexed.induced _).of_alike (indexed.removeNode_alike id) ?_ ?_
  · unfold Network.removeNode
    split
    · exact indexed.nodes
    · exact indexed.nodes.erase id
  · unfold Network.removeNode
    split
    · exact indexed.edges
    · exact indexed.edges.foldl_erase _

end Indexed

/-! ## What is left after removals -/

/-- `part` is what is left of `whole` after some nodes have gone: the surviving nodes as they were, all
edges between them and no other, and an index that is exact. -/
structure Remnant (whole part : Network) : Prop where
  indexed : part.Indexed
  alike : part.Alike (whole.induced part.nodes.contains)

namespace Remnant

variable {whole part : Network}

theorem refl (indexed : net.Indexed) : Remnant net net where
  indexed := indexed
  alike := indexed.induced_all fun id hid => (net.nodes.contains_iff id).mpr hid

theorem node?_eq (remnant : Remnant whole part) {id : NodeId} (live : part.Live id) :
    part.node? id = whole.node? id := by
  have hcontains : part.nodes.contains id = true := (part.nodes.contains_iff id).mpr live
  rw [remnant.alike.node?, node?_induced, if_pos hcontains]

theorem live (remnant : Remnant whole part) {id : NodeId} (h : part.Live id) : whole.Live id :=
  (live_induced.mp (remnant.alike.live_iff.mp h)).1

theorem relates_iff (remnant : Remnant whole part) {a b : NodeId} {r : Relation} :
    part.Relates a b r ↔ whole.Relates a b r ∧ part.Live a ∧ part.Live b := by
  rw [remnant.alike.relates_iff, relates_induced, Arena.contains_iff, Arena.contains_iff]
  rfl

/-- Removing one more node. -/
theorem removeNode (remnant : Remnant whole part) (id : NodeId) :
    Remnant whole (part.removeNode id) where
  indexed := remnant.indexed.removeNode id
  alike := by
    have hcontains : (part.removeNode id).nodes.contains =
        fun other => part.nodes.contains other && other != id := by
      funext other
      rw [Bool.eq_iff_iff, Bool.and_eq_true, Arena.contains_iff, Arena.contains_iff, bne_iff_ne]
      exact live_removeNode.trans and_comm
    rw [hcontains]
    exact ((remnant.indexed.removeNode_alike id).trans (remnant.alike.induced _)).trans
      (induced_induced whole _ _)

theorem foldl_removeNode (remnant : Remnant whole part) (ids : List NodeId) :
    Remnant whole (ids.foldl Network.removeNode part) := by
  induction ids generalizing part with
  | nil => exact remnant
  | cons id rest ih => exact ih (remnant.removeNode id)

end Remnant

theorem live_foldl_removeNode {ids : List NodeId} {other : NodeId} :
    (ids.foldl removeNode net).Live other ↔ other ∉ ids ∧ net.Live other := by
  induction ids generalizing net with
  | nil => simp
  | cons id rest ih =>
      rw [List.foldl_cons, ih, live_removeNode, List.mem_cons, not_or, ← and_assoc,
        and_comm (a := other ∉ rest)]

end Network

end ClassAtlas
