import ClassAtlas.Proofs.Reachable

/-!
# What finishing a graph keeps

Styles and pruning change a network in small steps: a style is merged into one node, or one node is
removed. Whatever each such step keeps is kept by applying the styles (`applyStyles_keeps`), by a
round of pruning (`prune_keeps`) and by pruning to the end (`pruneRounds_keeps`, `pruneAll_keeps`).
-/

namespace ClassAtlas

namespace Graph

open Network

variable {g : Graph} {P : Network → Prop}

/-! ## Styles -/

/-- The network in which a node has more attributes. -/
def restyled (net : Network) (id : NodeId) (attributes : Style) : Network :=
  net.modifyNode id (fun node => { node with style := node.style.merge attributes })

theorem pathOf_restyled (net : Network) (id other : NodeId) (attributes : Style) :
    (restyled net id attributes).pathOf other = net.pathOf other := by
  unfold restyled pathOf
  rw [node?_modifyNode]
  by_cases hother : other = id
  · rw [if_pos hother]
    cases net.node? other <;> rfl
  · rw [if_neg hother]

section Styles

variable (step : ∀ net id attributes, P net → P (restyled net id attributes))

include step

theorem styleNode_keeps (rules : List (Matcher × Style)) (net : Network) (id : NodeId)
    (start : P net) : P (styleNode rules net id) := by
  unfold styleNode
  induction rules generalizing net with
  | nil => exact start
  | cons rule rest ih =>
      rw [List.foldl_cons]
      refine ih _ ?_
      simp only
      split
      · exact step net id rule.2 start
      · exact start

theorem applyStyles_keeps (start : P g.net) : P g.applyStyles.net := by
  unfold applyStyles
  split
  · exact start
  · show P (g.net.nodeIds.foldl (styleNode g.styleRules) g.net)
    -- the nodes are listed once, before the first of them is styled
    generalize g.net.nodeIds = ids
    generalize g.net = net at start
    induction ids generalizing net with
    | nil => exact start
    | cons id rest ih => exact ih _ (styleNode_keeps step g.styleRules net id start)

end Styles

/-! ## Pruning -/

section Removals

variable {Q : Graph → Prop} (step : ∀ (g : Graph) id, Q g → Q (g.drop id))

include step

theorem foldl_drop_keeps (ids : List NodeId) (g : Graph) (start : Q g) : Q (ids.foldl drop g) := by
  induction ids generalizing g with
  | nil => exact start
  | cons id rest ih => exact ih (g.drop id) (step g id start)

theorem pruneRounds_keeps (noted : ∀ (g : Graph) event, Q g → Q (g.note event)) (fuel round : Nat)
    (g : Graph) (start : Q g) : Q (pruneRounds fuel round g).2 := by
  induction fuel generalizing round g with
  | zero => exact start
  | succ fuel ih =>
      have hpruned : Q g.prune.2 := foldl_drop_keeps step g.prunees g start
      unfold pruneRounds
      simp only
      split
      · exact hpruned
      · exact ih (round + 1) _ (noted _ _ hpruned)

end Removals

section Pruning

variable (step : ∀ (net : Network) id, net.Sound → P net → P (net.removeNode id))

include step

theorem sound_and_drop (g : Graph) (id : NodeId) (h : g.net.Sound ∧ P g.net) :
    (g.drop id).net.Sound ∧ P (g.drop id).net :=
  ⟨h.1.removeNode id, step g.net id h.1 h.2⟩

theorem prune_keeps (sound : g.net.Sound) (start : P g.net) : P g.prune.2.net :=
  (foldl_drop_keeps (sound_and_drop step) g.prunees g ⟨sound, start⟩).2

theorem pruneAll_keeps (sound : g.net.Sound) (start : P g.net) : P g.pruneAll.2.net :=
  (pruneRounds_keeps (sound_and_drop step) (fun _ _ h => h) g.nodeCount 1 g ⟨sound, start⟩).2

end Pruning

end Graph

end ClassAtlas
