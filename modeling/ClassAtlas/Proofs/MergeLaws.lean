import ClassAtlas.Proofs.NetworkLaws

/-!
# Laws of moving a node

The two ways to give a node another path. A node that is registered anew (`rekey`) keeps its identity
and all relations but, perhaps, its container. A node that is absorbed (`absorb`) is removed; the one
that takes its relations over keeps its path, and no containment is added. Both keep a network sound.
-/

namespace ClassAtlas

namespace Network

variable {net : Network}

/-! ## Nodes apart from their mark -/

/-- A node apart from the mark of a module that extends itself: its path, kind and style. -/
def content? (net : Network) (id : NodeId) : Option Node :=
  (net.node? id).map (fun node => { node with singleton := false })

theorem live_iff_content? {id : NodeId} : net.Live id ↔ (net.content? id).isSome := by
  rw [live_iff, content?, Option.isSome_map, Option.isSome_iff_exists]

theorem kindOf?_eq_content? (net : Network) (id : NodeId) :
    net.kindOf? id = (net.content? id).map Node.kind := by
  unfold kindOf? content?
  cases net.node? id <;> rfl

theorem pathOf_eq_content? (net : Network) (id : NodeId) :
    net.pathOf id = ((net.content? id).map Node.path).getD ⟨[]⟩ := by
  unfold pathOf content?
  cases net.node? id <;> rfl

/-! ## Registering anew -/

/-- A node under another path, with the relations that it had. -/
def renamed (net : Network) (id : NodeId) (path : Path) : Network :=
  ((net.modifyNode id (fun node => { node with path := path })).unregister
    (net.pathOf id)).register path id

/-- The node of the enclosing path, once `id` has its new one. -/
def newContainer? (net : Network) (id : NodeId) (path : Path) : Option NodeId :=
  path.parent?.bind (net.renamed id path).lookup

theorem rekey_eq (net : Network) (id : NodeId) (path : Path) :
    net.rekey id path =
      match net.newContainer? id path with
      | none => net.renamed id path
      | some outer =>
        ((net.renamed id path).removeEdges ((net.renamed id path).containerEdges id)).link outer id
          .containment := rfl

theorem node?_renamed (net : Network) (id other : NodeId) (path : Path) :
    (net.renamed id path).node? other =
      if other = id then (net.node? other).map (fun node => { node with path := path })
      else net.node? other :=
  net.node?_modifyNode id other _

theorem lookup_renamed (net : Network) (id : NodeId) (path other : Path) :
    (net.renamed id path).lookup other =
      if other = path then some id
      else if other = net.pathOf id then none
      else net.lookup other := by
  unfold renamed
  rw [lookup_register, lookup_unregister]
  rfl

@[simp] theorem relates_renamed {id a b : NodeId} {path : Path} {r : Relation} :
    (net.renamed id path).Relates a b r ↔ net.Relates a b r := Iff.rfl

@[simp] theorem live_renamed {id other : NodeId} {path : Path} :
    (net.renamed id path).Live other ↔ net.Live other :=
  live_modifyNode

namespace Sound

theorem renamed (sound : net.Sound) {id : NodeId} {path : Path} (live : net.Live id)
    (free : ∀ other, net.lookup path = some other → other = id) : (net.renamed id path).Sound where
  nodes := sound.nodes.modify id (fun node => { node with path := path })
  edges := sound.edges
  keys := keys_register (sound.keys.sublist (List.filter_sublist.map _))
  registered := by
    intro other other'
    obtain ⟨node, hnode⟩ := live_iff.mp live
    rw [lookup_renamed, node?_renamed]
    by_cases hid : other' = id
    · subst hid
      rw [if_pos rfl, hnode]
      by_cases hpath : other = path
      · simp [hpath]
      · have hpath' : ¬ path = other := fun h => hpath h.symm
        have hgone : (if other = net.pathOf other' then none else net.lookup other) ≠ some other' := by
          by_cases hold : other = net.pathOf other'
          · rw [if_pos hold]
            simp
          · rw [if_neg hold]
            exact fun h => hold (sound.pathOf_of_lookup h).symm
        rw [if_neg hpath]
        simp [hgone, hpath']
    · have hid' : ¬ id = other' := fun h => hid h.symm
      rw [if_neg hid, ← sound.registered other other']
      by_cases hpath : other = path
      · -- the new path was free, so no other node had it
        have hno : net.lookup other ≠ some other' := fun h => hid (free other' (hpath ▸ h))
        rw [if_pos hpath]
        simp [hid', hno]
      · rw [if_neg hpath]
        by_cases hold : other = net.pathOf id
        · rw [if_pos hold, hold, sound.lookup_pathOf live]
          simp [hid']
        · rw [if_neg hold]
  ends := by
    intro a b r h
    rw [live_renamed, live_renamed]
    exact sound.ends a b r h
  distinct := sound.distinct
  loopless := sound.loopless
  contained := sound.contained

/-- The new container is another node, and it has the enclosing path. -/
theorem newContainer?_eq_some (sound : net.Sound) {id outer : NodeId} {path : Path}
    (h : net.newContainer? id path = some outer) :
    outer ≠ id ∧ ∃ enclosing, path.parent? = some enclosing ∧ net.lookup enclosing = some outer := by
  obtain ⟨enclosing, hparent, hfound⟩ := Option.bind_eq_some_iff.mp h
  have hne : enclosing ≠ path := by
    rintro rfl
    exact Nat.lt_irrefl _ (Path.length_of_parent? hparent)
  rw [lookup_renamed, if_neg hne] at hfound
  by_cases hold : enclosing = net.pathOf id
  · rw [if_pos hold] at hfound
    exact absurd hfound (by simp)
  · rw [if_neg hold] at hfound
    refine ⟨?_, enclosing, hparent, hfound⟩
    rintro rfl
    exact hold (sound.pathOf_of_lookup hfound).symm

/-- Taking a node out of its container removes that containment and nothing else. -/
theorem relates_uncontained (sound : net.Sound) {id a b : NodeId} {r : Relation} :
    (net.removeEdges (net.containerEdges id)).Relates a b r ↔
      net.Relates a b r ∧ ¬ (b = id ∧ r = .containment) := by
  rw [relates_removeEdges]
  constructor
  · rintro ⟨eid, hmem, hkept⟩
    refine ⟨relates_iff.mpr ⟨eid, hmem⟩, ?_⟩
    rintro ⟨rfl, rfl⟩
    refine hkept (List.mem_map.mpr ⟨(eid, ⟨a, b, .containment⟩), ?_, rfl⟩)
    simp [incoming, hmem]
  · rintro ⟨hab, hother⟩
    obtain ⟨eid, hmem⟩ := relates_iff.mp hab
    refine ⟨eid, hmem, fun hgone => ?_⟩
    obtain ⟨⟨eid', edge⟩, hin, hsame⟩ := List.mem_map.mp hgone
    have heid : eid' = eid := hsame
    subst heid
    simp only [incoming, List.mem_filter, beq_iff_eq] at hin
    have h₁ := (sound.edges.get?_eq_some_iff eid' edge).mpr hin.1.1
    rw [(sound.edges.get?_eq_some_iff eid' _).mpr hmem] at h₁
    have hedge := Option.some.inj h₁
    subst hedge
    exact hother ⟨hin.1.2, hin.2⟩

theorem rekey (sound : net.Sound) {id : NodeId} {path : Path} (live : net.Live id)
    (free : ∀ other, net.lookup path = some other → other = id) : (net.rekey id path).Sound := by
  rw [rekey_eq]
  cases hnew : net.newContainer? id path with
  | none => exact sound.renamed live free
  | some outer =>
      obtain ⟨_, enclosing, _, hfound⟩ := sound.newContainer?_eq_some hnew
      refine ((sound.renamed live free).removeEdges _).link ?_ ?_
      · exact live_renamed.mpr (sound.live_of_lookup hfound)
      · exact live_renamed.mpr live

end Sound

theorem node?_rekey (net : Network) (id other : NodeId) (path : Path) :
    (net.rekey id path).node? other =
      if other = id then (net.node? other).map (fun node => { node with path := path })
      else net.node? other := by
  rw [rekey_eq, ← node?_renamed]
  cases net.newContainer? id path with
  | none => rfl
  | some outer => exact node?_link _ _ _ _ _

theorem content?_rekey_of_ne {id other : NodeId} {path : Path} (h : other ≠ id) :
    (net.rekey id path).content? other = net.content? other := by
  unfold content?
  rw [node?_rekey, if_neg h]

theorem pathOf_rekey_of_ne {id other : NodeId} {path : Path} (h : other ≠ id) :
    (net.rekey id path).pathOf other = net.pathOf other := by
  rw [pathOf_eq_content?, pathOf_eq_content?, content?_rekey_of_ne h]

theorem live_rekey {id other : NodeId} {path : Path} :
    (net.rekey id path).Live other ↔ net.Live other := by
  rw [live_iff, live_iff, node?_rekey]
  by_cases h : other = id <;> simp [h]

theorem pathOf_rekey_self {id : NodeId} {path : Path} (live : net.Live id) :
    (net.rekey id path).pathOf id = path := by
  obtain ⟨node, hnode⟩ := live_iff.mp live
  have h : (net.rekey id path).node? id = some { node with path := path } := by
    rw [node?_rekey, if_pos rfl, hnode]
    rfl
  exact pathOf_of_node? h

theorem Sound.relates_rekey_of_ne (sound : net.Sound) {id a b : NodeId} {path : Path} {r : Relation}
    (other : b ≠ id ∨ r ≠ .containment) :
    (net.rekey id path).Relates a b r ↔ net.Relates a b r := by
  have hnot : ¬ (b = id ∧ r = .containment) := by
    rintro ⟨hb, hr⟩
    rcases other with h | h
    · exact h hb
    · exact h hr
  rw [rekey_eq]
  cases hnew : net.newContainer? id path with
  | none => exact relates_renamed
  | some outer =>
      -- renaming leaves the edges alone, so this is the law of `net` itself
      have huncontained : ((net.renamed id path).removeEdges
          ((net.renamed id path).containerEdges id)).Relates a b r ↔
          net.Relates a b r ∧ ¬ (b = id ∧ r = .containment) := sound.relates_uncontained
      have hbase : ((net.renamed id path).removeEdges
          ((net.renamed id path).containerEdges id)).Relates a b r ↔ net.Relates a b r :=
        huncontained.trans ⟨fun h => h.1, fun h => ⟨h, hnot⟩⟩
      simp only [relates_link, hbase]
      constructor
      · rintro (⟨_, _, hb, hr⟩ | h)
        · exact absurd ⟨hb, hr⟩ hnot
        · exact h
      · exact .inr

/-- A registered node is contained where it was, or in the node of the enclosing path. -/
theorem Sound.relates_rekey_self (sound : net.Sound) {id a : NodeId} {path : Path}
    (h : (net.rekey id path).Relates a id .containment) :
    net.Relates a id .containment ∨
      a ≠ id ∧ ∃ enclosing, path.parent? = some enclosing ∧ net.lookup enclosing = some a := by
  rw [rekey_eq] at h
  cases hnew : net.newContainer? id path with
  | none =>
      rw [hnew] at h
      exact .inl h
  | some outer =>
      rw [hnew] at h
      rcases relates_link.mp h with ⟨_, rfl, _, _⟩ | hkept
      · exact .inr (sound.newContainer?_eq_some hnew)
      · exact .inl (relates_of_removeEdges hkept)

/-! ## Absorbing -/

/-- What taking relations over leaves as it is: the nodes, the index and all containment. -/
structure SameTree (before after : Network) : Prop where
  nodes : after.nodes = before.nodes
  index : after.index = before.index
  containment : ∀ a b, after.Relates a b .containment ↔ before.Relates a b .containment
  sound : after.Sound

namespace SameTree

theorem refl (sound : net.Sound) : SameTree net net :=
  ⟨rfl, rfl, fun _ _ => Iff.rfl, sound⟩

theorem trans {first second third : Network} (h₁ : SameTree first second)
    (h₂ : SameTree second third) : SameTree first third where
  nodes := h₂.nodes.trans h₁.nodes
  index := h₂.index.trans h₁.index
  containment a b := (h₂.containment a b).trans (h₁.containment a b)
  sound := h₂.sound

theorem live_iff {before after : Network} (h : SameTree before after) {id : NodeId} :
    after.Live id ↔ before.Live id := by
  unfold Live
  rw [h.nodes]

theorem link (sound : net.Sound) {s t : NodeId} {q : Relation} (hs : net.Live s) (ht : net.Live t)
    (loose : q ≠ .containment) : SameTree net (net.link s t q) where
  nodes := nodes_link _ _ _ _
  index := index_link _ _ _ _
  containment a b := by
    rw [relates_link]
    constructor
    · rintro (⟨_, _, _, hq⟩ | h)
      · exact absurd hq.symm loose
      · exact h
    · exact .inr
  sound := sound.link hs ht

/-- A step that keeps the tree, taken for each edge of a list. -/
theorem foldl {step : Network → Edge → Network} (edges : List Edge)
    (keeps : ∀ edge ∈ edges, ∀ between, SameTree net between → SameTree between (step between edge))
    (sound : net.Sound) : SameTree net (edges.foldl step net) := by
  induction edges generalizing net with
  | nil => exact .refl sound
  | cons edge rest ih =>
      have hfirst := keeps edge List.mem_cons_self net (.refl sound)
      refine hfirst.trans (ih ?_ hfirst.sound)
      intro other hother between hbetween
      exact keeps other (List.mem_cons_of_mem _ hother) between (hfirst.trans hbetween)

end SameTree

theorem mem_loose {entries : List (Nat × Edge)} {edge : Edge} (h : edge ∈ loose entries) :
    edge ∈ entries.map Prod.snd ∧ edge.relation ≠ .containment := by
  simpa [loose, List.mem_filter] using h

/-- The network in which `target` has taken the relations of `stale` over, which is still there. -/
def adopted (net : Network) (stale target : NodeId) : Network :=
  (loose (net.incoming stale)).foldl (adoptSource target)
    ((loose (net.outgoing stale)).foldl (adoptTarget target) net)

theorem Sound.sameTree_adopted (sound : net.Sound) (stale : NodeId) {target : NodeId}
    (live : net.Live target) : SameTree net (net.adopted stale target) := by
  have hedges : ∀ entries : List (Nat × Edge), entries.Sublist net.edges.entries →
      ∀ edge ∈ loose entries, net.Live edge.source ∧ net.Live edge.target ∧
        edge.relation ≠ .containment := by
    intro entries hsub edge hedge
    obtain ⟨hmem, hloose⟩ := mem_loose hedge
    have hrel : net.Relates edge.source edge.target edge.relation := (hsub.map Prod.snd).subset hmem
    exact ⟨(sound.ends _ _ _ hrel).1, (sound.ends _ _ _ hrel).2, hloose⟩
  have hleaving : SameTree net ((loose (net.outgoing stale)).foldl (adoptTarget target) net) := by
    refine SameTree.foldl _ ?_ sound
    intro edge hedge between hbetween
    obtain ⟨_, htarget, hloose⟩ := hedges _ List.filter_sublist edge hedge
    unfold adoptTarget
    split
    · exact .refl hbetween.sound
    · exact .link hbetween.sound (hbetween.live_iff.mpr live) (hbetween.live_iff.mpr htarget) hloose
  refine hleaving.trans (SameTree.foldl _ ?_ hleaving.sound)
  intro edge hedge between hbetween
  obtain ⟨hsource, _, hloose⟩ := hedges _ List.filter_sublist edge hedge
  have hall := hleaving.trans hbetween
  exact .link hbetween.sound (hall.live_iff.mpr hsource) (hall.live_iff.mpr live) hloose

theorem absorb_eq (net : Network) (stale target : NodeId) :
    net.absorb stale target =
      (if net.isSingleton stale then (net.adopted stale target).markSingleton target
       else net.adopted stale target).removeNode stale := rfl

theorem Sound.markSingleton (sound : net.Sound) (id : NodeId) : (net.markSingleton id).Sound := by
  refine sound.modifyNode fun node => ?_
  split <;> rfl

@[simp] theorem content?_markSingleton (net : Network) (id other : NodeId) :
    (net.markSingleton id).content? other = net.content? other := by
  unfold content? markSingleton
  rw [node?_modifyNode]
  by_cases h : other = id
  · rw [if_pos h, Option.map_map]
    congr 1
    funext node
    simp only [Function.comp_apply]
    split <;> rfl
  · rw [if_neg h]

@[simp] theorem relates_markSingleton {id a b : NodeId} {r : Relation} :
    (net.markSingleton id).Relates a b r ↔ net.Relates a b r := Iff.rfl

namespace Sound

theorem absorb (sound : net.Sound) (stale : NodeId) {target : NodeId} (live : net.Live target) :
    (net.absorb stale target).Sound := by
  have hsame := sound.sameTree_adopted stale live
  rw [absorb_eq]
  split
  · exact (hsame.sound.markSingleton target).removeNode stale
  · exact hsame.sound.removeNode stale

theorem content?_absorb (sound : net.Sound) (stale : NodeId) {target : NodeId}
    (live : net.Live target) (other : NodeId) :
    (net.absorb stale target).content? other =
      if other = stale then none else net.content? other := by
  have hadopted : (net.adopted stale target).content? other = net.content? other := by
    unfold content? node?
    rw [(sound.sameTree_adopted stale live).nodes]
  rw [absorb_eq]
  by_cases h : other = stale
  · unfold content?
    rw [node?_removeNode, if_pos h, if_pos h]
    rfl
  · rw [content?, node?_removeNode, if_neg h, if_neg h, ← content?]
    split
    · rw [content?_markSingleton, hadopted]
    · exact hadopted

theorem live_absorb (sound : net.Sound) (stale : NodeId) {target id : NodeId}
    (live : net.Live target) :
    (net.absorb stale target).Live id ↔ id ≠ stale ∧ net.Live id := by
  rw [live_iff_content?, sound.content?_absorb stale live, live_iff_content?]
  by_cases hid : id = stale <;> simp [hid]

theorem pathOf_absorb_of_ne (sound : net.Sound) {stale target id : NodeId} (live : net.Live target)
    (h : id ≠ stale) : (net.absorb stale target).pathOf id = net.pathOf id := by
  rw [pathOf_eq_content?, pathOf_eq_content?, sound.content?_absorb stale live, if_neg h]

/-- Absorbing a node ends its containments and leaves all others. -/
theorem relates_absorb (sound : net.Sound) {stale target a b : NodeId} (live : net.Live target) :
    (net.absorb stale target).Relates a b .containment ↔
      net.Relates a b .containment ∧ a ≠ stale ∧ b ≠ stale := by
  have hsame := sound.sameTree_adopted stale live
  rw [absorb_eq]
  split
  · rw [(hsame.sound.markSingleton target).relates_removeNode, relates_markSingleton,
      hsame.containment]
  · rw [hsame.sound.relates_removeNode, hsame.containment]

end Sound

end Network

end ClassAtlas
