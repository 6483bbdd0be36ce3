import ClassAtlas.Proofs.Adoption
import ClassAtlas.Proofs.Finishing
import ClassAtlas.Proofs.Placement

/-!
# Laws of the edges

A sound network already has edges between nodes that are there, with no loop, no copy and no second
container. Two more laws hold in every reachable graph (`Network.Regular`): no class has a second
superclass, and only modules extend themselves. For the folds at the end of the second pass this
rests on the law of one placement: absorbing a node may give a class a second superclass for a
moment, but only beside the node that is about to go.

So every relation can be read from both of its ends: the container of a node is the one among whose
children it is, and so on for the other relations.
-/

namespace ClassAtlas

namespace Network

variable {net before after : Network} {id : NodeId}

/-! ## Regular networks -/

/-- Only modules are marked as extending themselves. -/
def MarksModules (net : Network) : Prop :=
  ∀ id node, net.node? id = some node → node.singleton = true → node.kind = .moduleNode

/-- The laws of a network that soundness does not ask for. -/
structure Regular (net : Network) : Prop where
  single : net.SingleSuper
  marks : net.MarksModules

theorem SingleSuper.mono (single : before.SingleSuper)
    (edges : ∀ a b, after.Relates a b .inheritance → before.Relates a b .inheritance) :
    after.SingleSuper :=
  fun a b c hab hac => single a b c (edges a b hab) (edges a c hac)

theorem MarksModules.mono (marks : before.MarksModules)
    (nodes : ∀ id node, after.node? id = some node → before.node? id = some node) :
    after.MarksModules :=
  fun id node h => marks id node (nodes id node h)

/-- Changing a node in place, if that marks no class. -/
theorem MarksModules.modifyNode (marks : net.MarksModules) {f : Node → Node}
    (keeps : ∀ node, (node.singleton = true → node.kind = .moduleNode) →
      (f node).singleton = true → (f node).kind = .moduleNode) :
    (net.modifyNode id f).MarksModules := by
  intro other node h
  rw [node?_modifyNode] at h
  by_cases hother : other = id
  · rw [if_pos hother] at h
    obtain ⟨old, hold, rfl⟩ := Option.map_eq_some_iff.mp h
    exact keeps old (marks other old hold)
  · rw [if_neg hother] at h
    exact marks other node h

theorem MarksModules.markSingleton (marks : net.MarksModules) :
    (net.markSingleton id).MarksModules := by
  refine marks.modifyNode fun node hnode => ?_
  split
  · rename_i hmodule
    exact fun _ => hmodule
  · exact hnode

namespace Regular

theorem empty : Regular {} where
  single := by simp [SingleSuper, Relates]
  marks := by simp [MarksModules, node?, Arena.get?]

theorem addNode (regular : net.Regular) (path : Path) (kind : Kind) :
    (net.addNode { path := path, kind := kind }).Regular where
  single := regular.single
  marks := by
    intro other node h hmark
    rw [node?_addNode] at h
    split at h
    · -- a new node is not marked
      rw [← Option.some.inj h] at hmark
      exact absurd hmark (by simp)
    · exact regular.marks other node h hmark

/-- A relation that is no superclass. -/
theorem link (regular : net.Regular) {s t : NodeId} {q : Relation} (other : q ≠ .inheritance) :
    (net.link s t q).Regular where
  single := by
    refine regular.single.mono fun a b hab => ?_
    rw [relates_link] at hab
    rcases hab with ⟨_, _, _, hq⟩ | hold
    · exact absurd hq.symm other
    · exact hold
  marks := regular.marks.mono fun id node h => by rwa [node?_link] at h

theorem containedNet (regular : net.Regular) (outer : Option NodeId) (id : NodeId) :
    (Graph.containedNet net outer id).Regular := by
  cases outer with
  | none => exact regular
  | some outer => exact regular.link (by simp)

theorem restyled (regular : net.Regular) (id : NodeId) (attributes : Style) :
    (Graph.restyled net id attributes).Regular where
  single := regular.single
  marks := regular.marks.modifyNode fun _ hnode => hnode

theorem removeNode (regular : net.Regular) (sound : net.Sound) (id : NodeId) :
    (net.removeNode id).Regular where
  single := regular.single.mono fun a b hab => (sound.relates_removeNode.mp hab).1
  marks := by
    refine regular.marks.mono fun other node h => ?_
    rw [node?_removeNode] at h
    split at h
    · cases h
    · exact h

theorem rekey (regular : net.Regular) (sound : net.Sound) (id : NodeId) (path : Path) :
    (net.rekey id path).Regular where
  single := regular.single.mono fun a b hab =>
    (sound.relates_rekey_of_ne (.inr (by simp))).mp hab
  marks := by
    have hrenamed : (net.renamed id path).MarksModules := regular.marks.modifyNode fun _ hnode => hnode
    refine hrenamed.mono fun other node h => ?_
    rwa [node?_renamed, ← node?_rekey]

theorem absorb (regular : net.Regular) (sound : net.Sound) (stale : NodeId) {target : NodeId}
    (live : net.Live target) : (net.absorb stale target).Regular where
  single := sound.singleSuper_absorb live regular.single
  marks := by
    have hadopted : (net.adopted stale target).MarksModules := by
      refine regular.marks.mono fun other node h => ?_
      unfold node? at h ⊢
      rwa [(sound.sameTree_adopted stale live).nodes] at h
    have hmarked : (if net.isSingleton stale then (net.adopted stale target).markSingleton target
        else net.adopted stale target).MarksModules := by
      split
      · exact hadopted.markSingleton
      · exact hadopted
    rw [absorb_eq]
    refine hmarked.mono fun other node h => ?_
    rw [node?_removeNode] at h
    split at h
    · cases h
    · exact h

/-- One placement keeps a network regular. -/
theorem placed (regular : net.Regular) (sound : net.Sound) (stale : NodeId) (path : Path) :
    (net.placed stale path).Regular := by
  cases habsorber : net.absorber? stale path with
  | none =>
      rw [placed_of_none habsorber]
      exact regular.rekey sound stale path
  | some target =>
      rw [placed_of_some habsorber]
      exact regular.absorb sound stale (sound.live_of_lookup (absorber?_eq_some.mp habsorber).1)

end Regular

/-! ## Both ends of a relation -/

/-- A list without copies whose members are all the same has one member at most. -/
theorem length_le_one {ids : List NodeId} (nodup : ids.Nodup)
    (same : ∀ a ∈ ids, ∀ b ∈ ids, a = b) : ids.length ≤ 1 := by
  match ids, nodup, same with
  | [], _, _ => simp
  | [_], _, _ => simp
  | a :: b :: rest, nodup, same =>
      have hab : a = b := same a (by simp) b (by simp)
      simp [hab] at nodup

/-- In a listing of one node at most, the first is the only one. -/
theorem head?_byPath_eq_some {ids : List NodeId} (same : ∀ a ∈ ids, ∀ b ∈ ids, a = b) :
    (net.byPath ids).head? = some id ↔ id ∈ ids := by
  constructor
  · intro h
    exact mem_byPath.mp (List.mem_of_mem_head? h)
  · intro h
    have hlisted : id ∈ net.byPath ids := mem_byPath.mpr h
    cases hhead : (net.byPath ids).head? with
    | none =>
        rw [List.head?_eq_none_iff.mp hhead] at hlisted
        cases hlisted
    | some first =>
        rw [same first (mem_byPath.mp (List.mem_of_mem_head? hhead)) id h]

theorem Sound.parent?_eq_some (sound : net.Sound) {a b : NodeId} :
    net.parent? b = some a ↔ b ∈ net.children a := by
  unfold parent? children
  rw [head?_byPath_eq_some, mem_sources, mem_byPath, mem_targets]
  intro first hfirst second hsecond
  exact sound.contained first second b (mem_sources.mp hfirst) (mem_sources.mp hsecond)

theorem SingleSuper.superclass?_eq_some (single : net.SingleSuper) {a b : NodeId} :
    net.superclass? b = some a ↔ net.Relates b a .inheritance := by
  unfold superclass?
  rw [head?_byPath_eq_some, mem_targets]
  intro first hfirst second hsecond
  exact single b first second (mem_targets.mp hfirst) (mem_targets.mp hsecond)

theorem mem_byPath_targets {a b : NodeId} {r : Relation} :
    b ∈ net.byPath (net.targets a r) ↔ a ∈ net.byPath (net.sources b r) := by
  rw [mem_byPath, mem_byPath, mem_targets, mem_sources]

end Network

namespace Graph

open Network

variable {g : Graph} {depth : Nat}

/-! ## Every operation keeps a network regular -/

theorem regular_enter {inner : Graph} {kind : Kind} {name : Reference} {path : Path}
    (regular : g.net.Regular) (h : g.enter kind name = some (path, inner)) : inner.net.Regular := by
  obtain ⟨outer, id, _, entered⟩ := entered_of_enter h
  rcases entered.net with ⟨_, hnet⟩ | ⟨_, _, hnet⟩
  · rw [hnet]
    exact regular.containedNet outer id
  · rw [hnet]
    exact (regular.addNode path kind).containedNet outer id

theorem regular_inherit (regular : g.net.Regular) (superclass : Reference) :
    (g.inherit superclass).2.net.Regular := by
  refine ⟨fun a b c hab hac => ?_, ?_⟩
  · -- a superclass is recorded only for a class that has none
    rw [relates_inherit] at hab hac
    rcases hab with hb | ⟨_, hb, _⟩
    · rcases hac with hc | ⟨_, hc, _⟩
      · exact regular.single a b c hb hc
      · have hmem := mem_targets.mpr hb
        rw [hc.first] at hmem
        cases hmem
    · rcases hac with hc | ⟨_, hc, _⟩
      · have hmem := mem_targets.mpr hc
        rw [hb.first] at hmem
        cases hmem
      · exact Option.some.inj (hb.resolved.symm.trans hc.resolved)
  · rcases g.inherit_cases superclass with ⟨cls, target, _, heq⟩ | ⟨_, hnoted, _⟩
    · rw [heq]
      refine regular.marks.mono fun id node h => ?_
      rwa [← node?_link g.net cls target id .inheritance]
    · rw [hnoted]
      exact regular.marks

theorem regular_mix (regular : g.net.Regular) (mixin : Mixin) (target : Reference) :
    (g.mix mixin target).2.net.Regular := by
  rcases g.mix_cases mixin target with ⟨owner, found, _, heq⟩ | ⟨owner, _, _, _, _, heq⟩ |
    ⟨_, hnoted, _⟩
  · rw [heq]
    refine regular.link ?_
    cases mixin <;> simp [Mixin.relation]
  · rw [heq]
    rcases g.markSingleton_cases owner with ⟨_, hmark⟩ | ⟨_, hnoted⟩
    · show (g.markSingleton owner).net.Regular
      rw [hmark]
      exact ⟨regular.single, regular.marks.markSingleton⟩
    · show (g.markSingleton owner).net.Regular
      rw [hnoted]
      exact regular
  · rw [hnoted]
    exact regular

theorem regular_of_reachable (h : Reachable depth g) : g.net.Regular := by
  induction h with
  | empty => exact .empty
  | ignore _ hok ih =>
      unfold Graph.ignore at hok
      split at hok <;> cases hok
      exact ih
  | style _ hok ih =>
      unfold Graph.style at hok
      split at hok <;> cases hok
      exact ih
  | beginPass pass _ ih => exact ih
  | endPass h ih =>
      refine endPass_keeps ?_ (consistent_of_reachable h).sound ih
      exact fun net stale path hsound _ hregular => hregular.placed hsound stale path
  | enter _ hopen ih => exact regular_enter ih hopen
  | leave _ ih => exact ih
  | inherit superclass _ ih => exact regular_inherit ih superclass
  | mix mixin target _ ih => exact regular_mix ih mixin target
  | applyStyles _ ih =>
      exact applyStyles_keeps (fun net id attributes hnet => hnet.restyled id attributes) ih
  | prune h ih =>
      exact prune_keeps (fun net id hsound hnet => hnet.removeNode hsound id)
        (consistent_of_reachable h).sound ih
  | pruneAll h ih =>
      exact pruneAll_keeps (fun net id hsound hnet => hnet.removeNode hsound id)
        (consistent_of_reachable h).sound ih

/-- **Both views of every relation agree.** In a reachable graph the ends of all edges are there, no
edge is a loop, no edge is there twice, a node has one container and one superclass at most, and only
modules extend themselves. So each relation is read alike from both of its ends. -/
theorem views_agree_of_reachable (reachable : Reachable depth g) :
    (∀ a b relation, g.net.Relates a b relation →
      (∃ node, g.net.node? a = some node) ∧ ∃ node, g.net.node? b = some node) ∧
    (∀ a relation, ¬ g.net.Relates a a relation) ∧
    (g.net.edges.entries.map Prod.snd).Nodup ∧
    (∀ id, (g.net.sources id .containment).length ≤ 1) ∧
    (∀ id, (g.net.targets id .inheritance).length ≤ 1) ∧
    (∀ id node, g.net.node? id = some node → node.singleton = true → node.kind = .moduleNode) ∧
    (∀ a b, g.net.parent? b = some a ↔ b ∈ g.net.children a) ∧
    (∀ a b, g.net.superclass? b = some a ↔ b ∈ g.net.subclasses a) ∧
    (∀ a b, b ∈ g.net.included a ↔ a ∈ g.net.includers b) ∧
    ∀ a b, b ∈ g.net.extensions a ↔ a ∈ g.net.extenders b := by
  have hsound := (consistent_of_reachable reachable).sound
  have hregular := regular_of_reachable reachable
  refine ⟨?_, hsound.loopless, hsound.distinct, ?_, ?_, hregular.marks, ?_, ?_, ?_, ?_⟩
  · intro a b relation h
    obtain ⟨ha, hb⟩ := hsound.ends a b relation h
    exact ⟨live_iff.mp ha, live_iff.mp hb⟩
  · intro id
    refine length_le_one (hsound.nodup_sources id .containment) fun a ha b hb => ?_
    exact hsound.contained a b id (mem_sources.mp ha) (mem_sources.mp hb)
  · intro id
    refine length_le_one (hsound.nodup_targets id .inheritance) fun a ha b hb => ?_
    exact hregular.single id a b (mem_targets.mp ha) (mem_targets.mp hb)
  · exact fun a b => hsound.parent?_eq_some
  · intro a b
    unfold subclasses
    rw [hregular.single.superclass?_eq_some, mem_byPath, mem_sources]
  · exact fun a b => mem_byPath_targets
  · exact fun a b => mem_byPath_targets

/-- A class `X::Y` in `M` derives from `B` and includes `K`. It stands before `M::X`, so `Z` still finds it
at its bare path, and is folded into its place at the end. -/
def foldedClass : Graph :=
  let files : List (List Item) :=
    [[.classDecl (.relative ["B"]) none [],
      .moduleDecl (.relative ["K"]) [.mixing .extending [.selfRef]],
      .moduleDecl (.relative ["M"])
        [.classDecl (.relative ["X", "Y"]) (some (.relative ["B"]))
          [.mixing .including [.relative ["K"]]]],
      .classDecl (.relative ["Z"]) (some (.absolute ["X", "Y"])) [],
      .moduleDecl (.relative ["M"]) [.moduleDecl (.relative ["X"]) []]]]
  Graph.empty.build files

theorem views_agree_of_foldedClass :
    Reachable 0 foldedClass ∧ foldedClass.net.pathOf 6 = ⟨["M", "X", "Y"]⟩ ∧
      foldedClass.net.superclass? 4 = some 6 ∧ 4 ∈ foldedClass.net.subclasses 6 ∧
      (foldedClass.net.targets 4 .inheritance).length ≤ 1 ∧
      6 ∈ foldedClass.net.includers 1 ∧ 1 ∈ foldedClass.net.included 6 := by
  have hreachable : Reachable 0 foldedClass :=
    (Reachable.empty.runPass .findNodes _).runPass .findRelations _
  obtain ⟨_, _, _, _, hone, _, _, hsupers, hmixins, _⟩ := views_agree_of_reachable hreachable
  have hsuper : foldedClass.net.superclass? 4 = some 6 := by decide +kernel
  have hmixin : 6 ∈ foldedClass.net.includers 1 := by decide +kernel
  exact ⟨hreachable, by decide +kernel, hsuper, (hsupers 6 4).mp hsuper, hone 4, hmixin,
    (hmixins 6 1).mpr hmixin⟩

end Graph

end ClassAtlas
