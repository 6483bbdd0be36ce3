import Mathlib.Algebra.GroupWithZero.Nat
import ClassAtlas.Proofs.BuildStates
import ClassAtlas.Proofs.Subnetworks

/-!
# Pruning

A round of pruning removes the nodes that an ignore rule accepts in the network before the round, and
no others. The rules are arbitrary: removing a node may make a rule accept another node, or reject one
that it accepted before. Still the rounds come to an end, since all but the last remove a node
(`rounds_pruneAll`), and what the end is like follows from the rounds alone: no rule accepts anything
(`Rounds.none_ignored`), and what is left is the part of the network that lies in the survivors
(`Rounds.remnant`).
-/

namespace ClassAtlas

namespace Graph

open Network

variable {g final : Graph} {round : Nat} {counts : List Nat}

/-- An ignore rule accepts the node in the network as it is. -/
def ignores (g : Graph) (id : NodeId) : Bool :=
  g.excludeRules.any (fun matcher => matcher.accepts g.net id)

theorem ignores_eq_false {id : NodeId} :
    g.ignores id = false ↔ ∀ rule ∈ g.excludeRules, rule.accepts g.net id = false := by
  simp [ignores]

/-! ## One round -/

theorem mem_prunees {id : NodeId} : id ∈ g.prunees ↔ g.net.Live id ∧ g.ignores id = true := by
  show id ∈ g.net.nodeIds.filter g.ignores ↔ _
  rw [List.mem_filter, g.net.nodeIds_perm.mem_iff]
  rfl

theorem foldl_drop_net (ids : List NodeId) (g : Graph) :
    (ids.foldl drop g).net = ids.foldl removeNode g.net := by
  induction ids generalizing g with
  | nil => rfl
  | cons id rest ih => exact ih (g.drop id)

theorem foldl_drop_excludeRules (ids : List NodeId) (g : Graph) :
    (ids.foldl drop g).excludeRules = g.excludeRules := by
  induction ids generalizing g with
  | nil => rfl
  | cons id rest ih => exact ih (g.drop id)

/-- A round removes as many nodes as the rules accept. -/
theorem prune_count (g : Graph) : g.prune.1 = (g.net.nodes.ids.filter g.ignores).length :=
  (g.net.nodeIds_perm.filter g.ignores).length_eq

/-- A round leaves the nodes that no rule accepted before it. -/
theorem live_prune {id : NodeId} :
    g.prune.2.net.Live id ↔ g.net.Live id ∧ g.ignores id = false := by
  show (g.prunees.foldl drop g).net.Live id ↔ _
  rw [foldl_drop_net, live_foldl_removeNode, mem_prunees]
  cases g.ignores id <;> simp

theorem remnant_prune {whole : Network} (remnant : Remnant whole g.net) :
    Remnant whole g.prune.2.net := by
  show Remnant whole (g.prunees.foldl drop g).net
  rw [foldl_drop_net]
  exact remnant.foldl_removeNode g.prunees

theorem nodeCount_prune (indexed : g.net.Indexed) :
    g.prune.1 + g.prune.2.nodeCount = g.nodeCount := by
  have hrest : g.prune.2.net.nodes.ids.Perm
      (g.net.nodes.ids.filter fun id => !g.ignores id) := by
    refine (List.perm_ext_iff_of_nodup ?_ ?_).mpr fun id => ?_
    · exact (remnant_prune (.refl indexed)).indexed.nodes.ids_nodup
    · exact indexed.nodes.ids_nodup.filter _
    · rw [List.mem_filter, Bool.not_eq_true']
      exact live_prune
  have hsplit := List.length_eq_length_filter_add (l := g.net.nodes.ids) g.ignores
  rw [prune_count]
  show _ + g.prune.2.net.nodes.size = g.net.nodes.size
  rw [Arena.size_eq_length_ids, Arena.size_eq_length_ids, hrest.length_eq, ← hsplit]

/-- A round that finds nothing to remove changes nothing. -/
theorem prune_of_count_zero (none : g.prune.1 = 0) : g.prune.2 = g := by
  have hnil : g.prunees = [] := List.length_eq_zero_iff.mp none
  show g.prunees.foldl drop g = g
  rw [hnil]
  rfl

/-! ## All rounds -/

/-- Rounds of pruning, numbered from `round` on, up to one that finds nothing to remove. There is no
bound on their number. -/
inductive Rounds : Nat → Graph → List Nat → Graph → Prop
  | stop {round : Nat} {g : Graph} : g.prune.1 = 0 → Rounds round g [] g.prune.2
  | next {round : Nat} {g final : Graph} {counts : List Nat} : g.prune.1 ≠ 0 →
      Rounds (round + 1) (g.prune.2.note (.roundPruned g.prune.1 round)) counts final →
      Rounds round g (g.prune.1 :: counts) final

/-- With a bound of at least the number of nodes the rounds come to their end. -/
theorem rounds_pruneRounds {fuel : Nat} (indexed : g.net.Indexed) (enough : g.nodeCount ≤ fuel) :
    Rounds round g (pruneRounds fuel round g).1 (pruneRounds fuel round g).2 := by
  induction fuel generalizing round g with
  | zero =>
      have hnone : g.prune.1 = 0 := by
        have hcount := nodeCount_prune indexed
        omega
      have hstop : Rounds round g [] g.prune.2 := .stop hnone
      rw [prune_of_count_zero hnone] at hstop
      exact hstop
  | succ fuel ih =>
      unfold pruneRounds
      by_cases hnone : g.prune.1 = 0
      · simp only [hnone, if_true]
        exact .stop hnone
      · simp only [if_neg hnone]
        -- the round has removed a node, so the rest has one node less
        have hcount := nodeCount_prune indexed
        refine .next hnone (ih (remnant_prune (.refl indexed)).indexed ?_)
        show g.prune.2.nodeCount ≤ fuel
        omega

theorem rounds_pruneAll (indexed : g.net.Indexed) : Rounds 1 g g.pruneAll.1 g.pruneAll.2 :=
  rounds_pruneRounds indexed (Nat.le_refl _)

namespace Rounds

theorem excludeRules_eq (rounds : Rounds round g counts final) :
    final.excludeRules = g.excludeRules := by
  induction rounds with
  | stop _ => exact foldl_drop_excludeRules _ _
  | next _ _ ih => exact ih.trans (foldl_drop_excludeRules _ _)

theorem count_pos (rounds : Rounds round g counts final) : ∀ count ∈ counts, 0 < count := by
  induction rounds with
  | stop _ => simp
  | next hsome _ ih =>
      intro count hcount
      rcases List.mem_cons.mp hcount with hfirst | hlater
      · rw [hfirst]
        exact Nat.pos_of_ne_zero hsome
      · exact ih count hlater

theorem remnant {whole : Network} (rounds : Rounds round g counts final)
    (remnant : Remnant whole g.net) : Remnant whole final.net := by
  induction rounds with
  | stop _ => exact remnant_prune remnant
  | next _ _ ih => exact ih (remnant_prune remnant)

theorem sum_add_nodeCount (rounds : Rounds round g counts final) (indexed : g.net.Indexed) :
    counts.sum + final.nodeCount = g.nodeCount := by
  induction rounds with
  | stop hnone =>
      rw [prune_of_count_zero hnone]
      simp
  | @next _ g final counts _ _ ih =>
      have hrest : counts.sum + final.nodeCount = g.prune.2.nodeCount :=
        ih (remnant_prune (.refl indexed)).indexed
      have hcount := nodeCount_prune indexed
      rw [List.sum_cons]
      omega

/-- In the end no rule accepts anything. -/
theorem none_ignored (rounds : Rounds round g counts final) {id : NodeId}
    (live : final.net.Live id) : final.ignores id = false := by
  induction rounds with
  | @stop _ g hnone =>
      rw [prune_of_count_zero hnone] at live ⊢
      by_contra hsome
      have hmem : id ∈ g.prunees := mem_prunees.mpr ⟨live, Bool.not_eq_false _ ▸ hsome⟩
      rw [List.length_eq_zero_iff.mp hnone] at hmem
      exact List.not_mem_nil hmem
  | next _ _ ih => exact ih live

/-- A node that no rule accepts in any part of the network survives. -/
theorem live_of_never_accepted {whole : Network} {id : NodeId}
    (rounds : Rounds round g counts final) (remnant : Remnant whole g.net) (live : g.net.Live id)
    (never : ∀ part, Remnant whole part → part.Live id →
      ∀ rule ∈ g.excludeRules, rule.accepts part id = false) : final.net.Live id := by
  induction rounds with
  | stop _ => exact live_prune.mpr ⟨live, ignores_eq_false.mpr (never _ remnant live)⟩
  | next _ _ ih =>
      refine ih (remnant_prune remnant) ?_ fun part hpart hlive rule hrule => ?_
      · exact live_prune.mpr ⟨live, ignores_eq_false.mpr (never _ remnant live)⟩
      · exact never part hpart hlive rule (foldl_drop_excludeRules _ _ ▸ hrule)

end Rounds

/-- **Pruning to a fixed point.** One round removes exactly the nodes that some rule accepts before it,
and counts them. Pruning is a finished sequence of rounds; all counts are positive and add up to the
number of nodes removed. In the end no rule accepts any node, and what is left is the part of the
network that lies in the survivors: they are what they were, and an edge is there exactly if it was
there and both its ends survive. -/
theorem pruneAll_reaches_fixed_point (indexed : g.net.Indexed) :
    (g.prune.1 = (g.net.nodes.ids.filter g.ignores).length ∧
      (∀ id, g.prune.2.net.Live id ↔
        g.net.Live id ∧ ∀ rule ∈ g.excludeRules, rule.accepts g.net id = false) ∧
      Remnant g.net g.prune.2.net) ∧
    Rounds 1 g g.pruneAll.1 g.pruneAll.2 ∧
    (∀ count ∈ g.pruneAll.1, 0 < count) ∧
    g.pruneAll.1.sum + g.pruneAll.2.nodeCount = g.nodeCount ∧
    (∀ id, g.pruneAll.2.net.Live id →
      ∀ rule ∈ g.excludeRules, rule.accepts g.pruneAll.2.net id = false) ∧
    (∀ id, g.pruneAll.2.net.Live id → g.pruneAll.2.net.node? id = g.net.node? id) ∧
    (∀ a b relation, g.pruneAll.2.net.Relates a b relation ↔
      g.net.Relates a b relation ∧ g.pruneAll.2.net.Live a ∧ g.pruneAll.2.net.Live b) ∧
    Remnant g.net g.pruneAll.2.net := by
  have hrounds := rounds_pruneAll indexed
  have hremnant := hrounds.remnant (.refl indexed)
  refine ⟨⟨prune_count g, ?_, remnant_prune (.refl indexed)⟩, hrounds, hrounds.count_pos,
    hrounds.sum_add_nodeCount indexed, ?_, ?_, ?_, hremnant⟩
  · intro id
    rw [live_prune, ignores_eq_false]
  · intro id hlive
    rw [← hrounds.excludeRules_eq]
    exact ignores_eq_false.mp (hrounds.none_ignored hlive)
  · intro id hlive
    exact hremnant.node?_eq hlive
  · intro a b relation
    exact hremnant.relates_iff

/-- `C` includes `B`, which includes `A`. Once `B` is ignored, `A` and `C` are islands. -/
def chained : Graph :=
  built [.path ⟨["B"]⟩, .predicate PredicateSpec.island.holds] []
    [[.moduleDecl (.relative ["A"]) [],
      .moduleDecl (.relative ["B"]) [.mixing .including [.relative ["A"]]],
      .moduleDecl (.relative ["C"]) [.mixing .including [.relative ["B"]]],
      .moduleDecl (.relative ["D"]) [.mixing .extending [.relative ["E"]]],
      .moduleDecl (.relative ["E"]) []]]

theorem pruneAll_reaches_fixed_point_of_chained :
    chained.net.Indexed ∧ chained.prune.1 = 1 ∧ chained.prune.2.net.Live 0 ∧
      ¬ chained.pruneAll.2.net.Live 0 ∧
      chained.pruneAll.1.sum + chained.pruneAll.2.nodeCount = 5 ∧
      (chained.pruneAll.2.net.Relates 3 4 .extension ↔
        chained.net.Relates 3 4 .extension ∧ chained.pruneAll.2.net.Live 3 ∧
          chained.pruneAll.2.net.Live 4) := by
  have hindexed : chained.net.Indexed :=
    (consistent_of_reachable (reachable_built _ _ _)).sound.indexed
  obtain ⟨⟨hfirst, _⟩, _, _, hsum, hnone, hkept, hedges, _⟩ :=
    pruneAll_reaches_fixed_point hindexed
  have hnamed : ¬ chained.pruneAll.2.net.Live 1 := by
    intro hlive
    have hpath := hnone 1 hlive (.path ⟨["B"]⟩) (.head _)
    rw [Matcher.accepts, pathOf, hkept 1 hlive] at hpath
    exact absurd hpath (by decide +kernel)
  -- all edges of the first node are with the second
  have hends : ∀ entry ∈ chained.net.edges.entries,
      entry.2.source = 0 ∨ entry.2.target = 0 → entry.2.source = 1 ∨ entry.2.target = 1 := by
    decide +kernel
  have halone : ∀ a b relation, chained.pruneAll.2.net.Relates a b relation → ¬ (a = 0 ∨ b = 0) := by
    intro a b relation hedge hfirst
    obtain ⟨hbefore, ha, hb⟩ := (hedges a b relation).mp hedge
    obtain ⟨_, hmem⟩ := relates_iff.mp hbefore
    rcases hends _ hmem hfirst with h | h
    · exact hnamed (h ▸ ha)
    · exact hnamed (h ▸ hb)
  refine ⟨hindexed, hfirst.trans (by decide +kernel), live_prune.mpr ⟨live_iff.mpr ⟨_, rfl⟩, ?_⟩, ?_,
    hsum.trans (by decide +kernel), hedges 3 4 .extension⟩
  · decide +kernel
  · intro hlive
    have hisland : chained.pruneAll.2.net.isIsland 0 = true :=
      isIsland_iff.mpr fun other relation =>
        ⟨fun h => halone _ _ _ h (.inl rfl), fun h => halone _ _ _ h (.inr rfl)⟩
    have hrejected := hnone 0 hlive (.predicate PredicateSpec.island.holds) (.tail _ (.head _))
    exact Bool.noConfusion (hisland.symm.trans hrejected)

end Graph

end ClassAtlas
