import Mathlib.Logic.Relation
import ClassAtlas.Proofs.Pruning

/-!
# The order of pruning

Some rules are stable: a node that they accept they accept still when other nodes have gone
(`Matcher.Stable.accepts_part`). With such rules only, the order of removals does not matter. Pruning
leaves the greatest set of nodes within which no rule accepts anything, and so does every other way to
remove accepted nodes until none is left. The reason is one invariant: a set within which no rule
accepts anything loses no node to any removal (`Unmatched.step`).
-/

namespace ClassAtlas

/-- The properties that a node cannot lose when other nodes go. -/
def PredicateSpec.isStable : PredicateSpec → Bool
  | .inheritsFrom _ => false
  | .includes _ => false
  | .extendedBy _ => false
  | _ => true

/-- Tests of a path, and stable properties. -/
inductive Matcher.Stable : Matcher → Prop
  | path (wanted : Path) : Stable (.path wanted)
  | pattern (source : String) (occurs : String → Bool) : Stable (.pattern source occurs)
  | predicate {spec : PredicateSpec} : spec.isStable = true → Stable (.predicate spec.holds)

namespace Network

variable {small large net whole part : Network} {keep : NodeId → Bool}

/-! ## Parts with fewer edges -/

/-- The nodes of one network are those of another, and its edges are some of the other's edges. -/
structure Part (small large : Network) : Prop where
  node? : ∀ id, small.Live id → small.node? id = large.node? id
  relates : ∀ a b r, small.Relates a b r → large.Relates a b r

theorem Alike.toPart (alike : small.Alike large) : Part small large where
  node? := fun id _ => alike.node? id
  relates := fun _ _ _ h => alike.relates_iff.mp h

theorem Remnant.toPart (remnant : Remnant whole part) : Part part whole where
  node? := fun _ h => remnant.node?_eq h
  relates := fun _ _ _ h => (remnant.relates_iff.mp h).1

/-- What lies in survivors is part of what is left. -/
theorem Remnant.part_induced (remnant : Remnant whole part)
    (survive : ∀ id, keep id = true → part.Live id) : Part (whole.induced keep) part where
  node? := by
    intro id h
    obtain ⟨_, hkeep⟩ := live_induced.mp h
    rw [node?_induced, if_pos hkeep, remnant.node?_eq (survive id hkeep)]
  relates := by
    intro a b r h
    obtain ⟨hab, ha, hb⟩ := relates_induced.mp h
    exact remnant.relates_iff.mpr ⟨hab, survive a ha, survive b hb⟩

theorem Part.pathOf (sub : Part small large) {id : NodeId} (live : small.Live id) :
    small.pathOf id = large.pathOf id := by
  unfold Network.pathOf
  rw [sub.node? id live]

end Network

/-! ## Stable rules -/

open Network

theorem PredicateSpec.holds_part {spec : PredicateSpec} {small large : Network} {id : NodeId}
    (stable : spec.isStable = true) (sub : Part small large) (live : small.Live id)
    (holds : spec.holds large id = true) : spec.holds small id = true := by
  have hnode := sub.node? id live
  cases spec with
  | island =>
      have hnone := isIsland_iff.mp holds
      refine isIsland_iff.mpr fun other r => ⟨?_, ?_⟩
      · intro h
        exact (hnone other r).1 (sub.relates _ _ _ h)
      · intro h
        exact (hnone other r).2 (sub.relates _ _ _ h)
  | orphan =>
      have hnone := isOrphan_iff.mp holds
      refine isOrphan_iff.mpr fun other h => ?_
      exact hnone other (sub.relates _ _ _ h)
  -- the other stable properties read the node alone
  | isClass =>
      unfold PredicateSpec.holds kindOf? at holds ⊢
      rw [hnode]
      exact holds
  | isModule =>
      unfold PredicateSpec.holds kindOf? at holds ⊢
      rw [hnode]
      exact holds
  | singleton =>
      unfold PredicateSpec.holds at holds ⊢
      rw [hnode]
      exact holds
  | named name =>
      unfold PredicateSpec.holds at holds ⊢
      rw [sub.pathOf live]
      exact holds
  | inheritsFrom _ => exact absurd stable Bool.false_ne_true
  | includes _ => exact absurd stable Bool.false_ne_true
  | extendedBy _ => exact absurd stable Bool.false_ne_true

/-- A stable rule accepts a node still when other nodes and edges have gone. -/
theorem Matcher.Stable.accepts_part {rule : Matcher} {small large : Network} {id : NodeId}
    (stable : rule.Stable) (sub : Part small large) (live : small.Live id)
    (accepts : rule.accepts large id = true) : rule.accepts small id = true := by
  cases stable with
  | path wanted =>
      unfold Matcher.accepts at accepts ⊢
      rw [sub.pathOf live]
      exact accepts
  | pattern source occurs =>
      unfold Matcher.accepts at accepts ⊢
      rw [sub.pathOf live]
      exact accepts
  | predicate hspec => exact PredicateSpec.holds_part hspec sub live accepts

namespace Network

variable {net whole part : Network} {rules : List Matcher} {keep : NodeId → Bool}

/-! ## Removing accepted nodes one at a time -/

/-- One node that a rule accepts is removed. -/
inductive Removes (rules : List Matcher) (net : Network) : Network → Prop
  | node {id : NodeId} {rule : Matcher} : net.Live id → rule ∈ rules →
      rule.accepts net id = true → Removes rules net (net.removeNode id)

/-- Any number of removals. -/
abbrev Removals (rules : List Matcher) : Network → Network → Prop :=
  Relation.ReflTransGen (Removes rules)

/-- No rule accepts a node. -/
def Settled (rules : List Matcher) (net : Network) : Prop :=
  ∀ id, net.Live id → ∀ rule ∈ rules, rule.accepts net id = false

/-- A set of nodes such that no rule accepts one of them in the part of the network that lies in the
set. -/
structure Unmatched (rules : List Matcher) (net : Network) (keep : NodeId → Bool) : Prop where
  live : ∀ id, keep id = true → net.Live id
  rejected : ∀ id, keep id = true → ∀ rule ∈ rules, rule.accepts (net.induced keep) id = false

/-- Removals make a network smaller, so no sequence of them goes on for ever. -/
theorem Removes.size_lt {next : Network} (step : Removes rules net next) (indexed : net.Indexed) :
    next.nodes.size < net.nodes.size := by
  obtain ⟨hlive, _, _⟩ := step
  obtain ⟨entry, hentry, hid⟩ := List.mem_map.mp hlive
  show (net.removeNode _).nodes.entries.length < net.nodes.entries.length
  rw [(indexed.removeNode_alike _).nodes]
  refine List.length_filter_lt_length_iff_exists.mpr ⟨entry, hentry, ?_⟩
  simp [hid]

theorem remnant_of_removals (remnant : Remnant whole part)
    (run : Removals rules part net) : Remnant whole net := by
  induction run with
  | refl => exact remnant
  | tail _ step ih =>
      obtain ⟨_, _, _⟩ := step
      exact ih.removeNode _

section Stable

variable (stable : ∀ rule ∈ rules, rule.Stable)

include stable

/-- A removal takes nothing from a set within which no rule accepts anything. -/
theorem Unmatched.step {next : Network} (unmatched : Unmatched rules whole keep)
    (remnant : Remnant whole part) (survive : ∀ id, keep id = true → part.Live id)
    (step : Removes rules part next) : ∀ id, keep id = true → next.Live id := by
  obtain ⟨_, hrule, haccepts⟩ := step
  intro id hkeep
  refine live_removeNode.mpr ⟨?_, survive id hkeep⟩
  intro hgone
  -- the rule would accept the removed node within the set too
  have hlive : (whole.induced keep).Live id := live_induced.mpr ⟨unmatched.live id hkeep, hkeep⟩
  rw [← hgone] at haccepts
  have hwithin := (stable _ hrule).accepts_part (remnant.part_induced survive) hlive haccepts
  rw [unmatched.rejected id hkeep _ hrule] at hwithin
  exact Bool.false_ne_true hwithin

theorem Unmatched.survives (unmatched : Unmatched rules whole keep) (indexed : whole.Indexed)
    (run : Removals rules whole net) : ∀ id, keep id = true → net.Live id := by
  induction run with
  | refl => exact unmatched.live
  | tail hrun step ih =>
      exact unmatched.step stable (remnant_of_removals (.refl indexed) hrun) ih step

/-- Where nothing more is accepted, no rule accepts anything within the survivors. -/
theorem Settled.unmatched (settled : Settled rules part) (remnant : Remnant whole part) :
    Unmatched rules whole part.nodes.contains where
  live := by
    intro id h
    exact remnant.live ((part.nodes.contains_iff id).mp h)
  rejected := by
    intro id h rule hrule
    have hlive : part.Live id := (part.nodes.contains_iff id).mp h
    by_contra haccepts
    rw [Bool.not_eq_false] at haccepts
    have hpart := (stable rule hrule).accepts_part remnant.alike.toPart hlive haccepts
    rw [settled id hlive rule hrule] at hpart
    exact Bool.false_ne_true hpart

/-- Any two ways to remove accepted nodes to the end leave the same network. -/
theorem alike_of_settled {first second : Network} (indexed : whole.Indexed)
    (firstRun : Removals rules whole first) (firstSettled : Settled rules first)
    (secondRun : Removals rules whole second)
    (secondSettled : Settled rules second) : first.Alike second := by
  have hfirst := remnant_of_removals (.refl indexed) firstRun
  have hsecond := remnant_of_removals (.refl indexed) secondRun
  have hsame : first.nodes.contains = second.nodes.contains := by
    funext id
    rw [Bool.eq_iff_iff]
    constructor
    · intro h
      refine (second.nodes.contains_iff id).mpr ?_
      exact (firstSettled.unmatched stable hfirst).survives stable indexed secondRun id h
    · intro h
      refine (first.nodes.contains_iff id).mpr ?_
      exact (secondSettled.unmatched stable hsecond).survives stable indexed firstRun id h
  refine hfirst.alike.trans ?_
  rw [hsame]
  exact hsecond.alike.symm

/-- Accepted nodes can be removed one after the other: the removal of one leaves the others
accepted. -/
theorem removals_foldl {ids : List NodeId} (indexed : net.Indexed) (distinct : ids.Nodup)
    (accepted : ∀ id ∈ ids, net.Live id ∧ ∃ rule ∈ rules, rule.accepts net id = true) :
    Removals rules net (ids.foldl removeNode net) := by
  induction ids generalizing net with
  | nil => exact .refl
  | cons id rest ih =>
      obtain ⟨hnew, hrest⟩ := List.nodup_cons.mp distinct
      obtain ⟨hlive, rule, hrule, haccepts⟩ := accepted id List.mem_cons_self
      have hpart : Part (net.removeNode id) net := ((Remnant.refl indexed).removeNode id).toPart
      refine .head (.node hlive hrule haccepts) (ih (indexed.removeNode id) hrest ?_)
      intro other hother
      obtain ⟨hlive', rule', hrule', haccepts'⟩ := accepted other (List.mem_cons_of_mem _ hother)
      have hstill : (net.removeNode id).Live other := by
        refine live_removeNode.mpr ⟨?_, hlive'⟩
        intro h
        exact hnew (h ▸ hother)
      exact ⟨hstill, rule', hrule', (stable rule' hrule').accepts_part hpart hstill haccepts'⟩

end Stable

end Network

namespace Graph

variable {g final : Graph} {round : Nat} {counts : List Nat}

/-! ## Rounds as single removals -/

theorem removals_prune (indexed : g.net.Indexed) (stable : ∀ rule ∈ g.excludeRules, rule.Stable) :
    Removals g.excludeRules g.net g.prune.2.net := by
  show Removals _ g.net (g.prunees.foldl drop g).net
  rw [foldl_drop_net]
  refine removals_foldl stable indexed ?_ ?_
  · exact (g.net.nodeIds_perm.nodup_iff.mpr indexed.nodes.ids_nodup).filter _
  · intro id h
    obtain ⟨hlive, hignored⟩ := mem_prunees.mp h
    exact ⟨hlive, List.any_eq_true.mp hignored⟩

theorem Rounds.removals (rounds : Rounds round g counts final) (indexed : g.net.Indexed)
    (stable : ∀ rule ∈ g.excludeRules, rule.Stable) :
    Removals g.excludeRules g.net final.net := by
  induction rounds with
  | stop _ => exact removals_prune indexed stable
  | @next _ g _ _ _ _ ih =>
      have hrules : g.prune.2.excludeRules = g.excludeRules := foldl_drop_excludeRules _ _
      refine (removals_prune indexed stable).trans ?_
      rw [← hrules] at stable ⊢
      exact ih (remnant_prune (.refl indexed)).indexed stable

theorem Rounds.settled (rounds : Rounds round g counts final) : Settled g.excludeRules final.net := by
  intro id hlive
  rw [← rounds.excludeRules_eq]
  exact ignores_eq_false.mp (rounds.none_ignored hlive)

/-- **Pruning by stable rules does not depend on any order.** It leaves the greatest set of nodes within
which no rule accepts anything. The order of the rules does not matter. To remove accepted nodes one at
a time comes to an end in any order, and whenever no rule accepts a node any more, the network is the
one that pruning leaves. -/
theorem pruneAll_greatest_unmatched (indexed : g.net.Indexed)
    (stable : ∀ rule ∈ g.excludeRules, rule.Stable) :
    Unmatched g.excludeRules g.net g.pruneAll.2.net.nodes.contains ∧
    (∀ keep, Unmatched g.excludeRules g.net keep →
      ∀ id, keep id = true → g.pruneAll.2.net.nodes.contains id = true) ∧
    (∀ rules, (∀ rule, rule ∈ rules ↔ rule ∈ g.excludeRules) →
      Network.Alike { g with excludeRules := rules }.pruneAll.2.net g.pruneAll.2.net) ∧
    ∀ net, Removals g.excludeRules g.net net →
      (∀ next, Removes g.excludeRules net next → next.nodes.size < net.nodes.size) ∧
      (∃ last, Removals g.excludeRules net last ∧ Settled g.excludeRules last) ∧
      (Settled g.excludeRules net → net.Alike g.pruneAll.2.net) := by
  have hrounds := rounds_pruneAll indexed
  have hrun := hrounds.removals indexed stable
  refine ⟨hrounds.settled.unmatched stable (hrounds.remnant (.refl indexed)), ?_, ?_, ?_⟩
  · intro keep hkeep id hid
    exact (Arena.contains_iff _ id).mpr (hkeep.survives stable indexed hrun id hid)
  · -- the same rules in another order accept the same nodes
    intro rules hsame
    let other : Graph := { g with excludeRules := rules }
    have hstable : ∀ rule ∈ other.excludeRules, rule.Stable := by
      intro rule hrule
      exact stable rule ((hsame rule).mp hrule)
    have hother : Rounds 1 other other.pruneAll.1 other.pruneAll.2 := rounds_pruneAll indexed
    have hremoves : ∀ net next, Removes rules net next → Removes g.excludeRules net next := by
      intro net next step
      obtain ⟨hlive, hrule, haccepts⟩ := step
      exact .node hlive ((hsame _).mp hrule) haccepts
    have hrun' : Removals g.excludeRules g.net other.pruneAll.2.net :=
      Relation.ReflTransGen.mono hremoves _ _ (hother.removals indexed hstable)
    refine alike_of_settled stable indexed hrun' ?_ hrun hrounds.settled
    intro id hlive rule hrule
    exact hother.settled id hlive rule ((hsame rule).mpr hrule)
  · intro net hnet
    have hnow := (remnant_of_removals (.refl indexed) hnet).indexed
    refine ⟨fun next step => step.size_lt hnow, ?_, ?_⟩
    · -- pruning from here on is one way to the end
      have hlater : Rounds 1 { g with net := net } _ _ := rounds_pruneAll hnow
      exact ⟨_, hlater.removals hnow stable, hlater.settled⟩
    · intro hsettled
      exact alike_of_settled stable indexed hnet hsettled hrun hrounds.settled

theorem pruneAll_greatest_unmatched_of_chained :
    chained.net.Indexed ∧ (∀ rule ∈ chained.excludeRules, rule.Stable) ∧
      Unmatched chained.excludeRules chained.net chained.pruneAll.2.net.nodes.contains ∧
      Network.Alike { chained with excludeRules := chained.excludeRules.reverse }.pruneAll.2.net
        chained.pruneAll.2.net ∧
      Removes chained.excludeRules chained.net (chained.net.removeNode 1) ∧
      ∃ last, Removals chained.excludeRules (chained.net.removeNode 1) last ∧
        Settled chained.excludeRules last ∧ last.Alike chained.pruneAll.2.net := by
  have hindexed : chained.net.Indexed :=
    (consistent_of_reachable (reachable_built _ _ _)).sound.indexed
  have hstable : ∀ rule ∈ chained.excludeRules, rule.Stable := by
    intro rule hrule
    rcases List.mem_pair.mp hrule with h | h
    · rw [h]
      exact .path _
    · rw [h]
      exact .predicate rfl
  have hnamed : (Matcher.path ⟨["B"]⟩).accepts chained.net 1 = true := by decide +kernel
  have hstep : Removes chained.excludeRules chained.net (chained.net.removeNode 1) :=
    .node (live_iff.mpr ⟨_, rfl⟩) (.head _) hnamed
  obtain ⟨hunmatched, _, horder, hruns⟩ := pruneAll_greatest_unmatched hindexed hstable
  obtain ⟨_, ⟨last, hrest, hsettled⟩, _⟩ := hruns _ (.single hstep)
  exact ⟨hindexed, hstable, hunmatched, horder _ fun rule => List.mem_reverse, hstep, last, hrest,
    hsettled, (hruns last (.head hstep hrest)).2.2 hsettled⟩

end Graph

end ClassAtlas
