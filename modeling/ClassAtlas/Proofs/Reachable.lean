import ClassAtlas.Proofs.Folding
import ClassAtlas.Proofs.Operations

/-!
# Reachable graphs

A graph is changed by its operations only. `Reachable` says that some sequence of them leads to a
graph, with a number of declarations open; pruning is left to the time when none is. What every
operation keeps is `Consistent`: the network is sound and the open scopes are nodes of it.
-/

namespace ClassAtlas

namespace Graph

open Network

/-- The graph can be made from the empty one by operations, with `depth` declarations open. Nodes are
pruned only outside of all declarations. -/
inductive Reachable : Nat → Graph → Prop
  | empty : Reachable 0 .empty
  | ignore {depth g g'} {matcher : Matcher} :
      Reachable depth g → g.ignore matcher = .ok g' → Reachable depth g'
  | style {depth g g'} {matcher : Matcher} {attributes : Style} :
      Reachable depth g → g.style matcher attributes = .ok g' → Reachable depth g'
  | beginPass {depth g} (pass : Pass) : Reachable depth g → Reachable depth (g.beginPass pass)
  | endPass {depth g} : Reachable depth g → Reachable depth g.endPass
  | enter {depth g g'} {kind : Kind} {name : Reference} {path : Path} :
      Reachable depth g → g.enter kind name = some (path, g') → Reachable (depth + 1) g'
  | leave {depth g} : Reachable (depth + 1) g → Reachable depth g.leave
  | inherit {depth g} (superclass : Reference) :
      Reachable depth g → Reachable depth (g.inherit superclass).2
  | mix {depth g} (mixin : Mixin) (target : Reference) :
      Reachable depth g → Reachable depth (g.mix mixin target).2
  | applyStyles {depth g} : Reachable depth g → Reachable depth g.applyStyles
  | prune {g} : Reachable 0 g → Reachable 0 g.prune.2
  | pruneAll {g} : Reachable 0 g → Reachable 0 g.pruneAll.2

variable {g : Graph} {depth : Nat}

/-- A declaration with a body that is made of operations. -/
theorem Reachable.declare (h : Reachable depth g) (kind : Kind) (name : Reference)
    {body : Graph → Graph} (inside : ∀ g, Reachable (depth + 1) g → Reachable (depth + 1) (body g)) :
    Reachable depth (g.declare kind name body).2 := by
  unfold Graph.declare
  cases hopen : g.enter kind name with
  | none => exact h
  | some entered => exact (inside entered.2 (h.enter hopen)).leave

/-! ## What the operations keep -/

/-- The network is sound, and no more scopes are open than declarations, each of them a node. -/
structure Consistent (depth : Nat) (g : Graph) : Prop where
  sound : g.net.Sound
  scope : ∀ id ∈ g.scope, g.net.Live id
  bound : g.scope.length ≤ depth

namespace Consistent

theorem noted {h : Graph} (consistent : Consistent depth g) (noted : Noted g h) :
    Consistent depth h := by
  rw [noted]
  exact ⟨consistent.sound, consistent.scope, consistent.bound⟩

/-- A change of the network that takes no node away. -/
theorem withNet {net : Network} (consistent : Consistent depth g) (sound : net.Sound)
    (live : ∀ id, g.net.Live id → net.Live id) : Consistent depth { g with net := net } where
  sound := sound
  scope := fun id h => live id (consistent.scope id h)
  bound := consistent.bound

theorem of_scope_nil (sound : g.net.Sound) (none : g.scope = []) : Consistent depth g where
  sound := sound
  scope := by simp [none]
  bound := by simp [none]

theorem enter {inner : Graph} {kind : Kind} {name : Reference} {path : Path}
    (consistent : Consistent depth g) (h : g.enter kind name = some (path, inner)) :
    Consistent (depth + 1) inner := by
  obtain ⟨outer, id, htarget, entered⟩ := entered_of_enter h
  have houter := (declarationTarget_spec consistent.sound consistent.scope htarget).2
  have hsound := entered.sound consistent.sound (fun around h => (houter around h).1)
  refine ⟨hsound, fun other hother => ?_, ?_⟩
  · rw [entered.scope] at hother
    rcases List.mem_cons.mp hother with rfl | hmem
    · exact hsound.live_of_lookup entered.lookup_path
    · have hlive := consistent.scope other hmem
      rw [live_iff, entered.node?_of_live consistent.sound hlive]
      exact live_iff.mp hlive
  · rw [entered.scope, List.length_cons]
    exact Nat.succ_le_succ consistent.bound

theorem leave (consistent : Consistent (depth + 1) g) : Consistent depth g.leave where
  sound := consistent.sound
  scope := fun id h => consistent.scope id (List.mem_of_mem_tail h)
  bound := by
    show g.scope.tail.length ≤ depth
    rw [List.length_tail]
    exact Nat.sub_le_iff_le_add.mpr consistent.bound

theorem connect {source target : NodeId} {relation : Relation} (consistent : Consistent depth g)
    (hsource : g.net.Live source) (htarget : g.net.Live target) :
    Consistent depth (g.connect source target relation).2 :=
  consistent.withNet (consistent.sound.link hsource htarget) fun _ h => live_link.mpr h

theorem inherit (consistent : Consistent depth g) (superclass : Reference) :
    Consistent depth (g.inherit superclass).2 := by
  rcases g.inherit_cases superclass with ⟨cls, target, h, heq⟩ | ⟨_, hnoted, _⟩
  · rw [heq]
    exact consistent.connect (consistent.scope cls (mem_scope_of_top? h.top))
      (consistent.sound.live_of_resolve h.resolved)
  · exact consistent.noted hnoted

theorem mix (consistent : Consistent depth g) (mixin : Mixin) (target : Reference) :
    Consistent depth (g.mix mixin target).2 := by
  rcases g.mix_cases mixin target with ⟨owner, found, h, heq⟩ | ⟨owner, _, _, _, _, heq⟩ |
    ⟨_, hnoted, _⟩
  · rw [heq]
    exact consistent.connect (consistent.scope owner (mem_scope_of_top? h.top))
      (consistent.sound.live_of_resolve h.resolved)
  · rw [heq]
    rcases g.markSingleton_cases owner with ⟨_, hmark⟩ | ⟨_, hnoted⟩
    · show Consistent depth (g.markSingleton owner)
      rw [hmark]
      refine consistent.withNet (consistent.sound.markSingleton owner) fun _ h => ?_
      exact live_modifyNode.mpr h
    · exact consistent.noted hnoted
  · exact consistent.noted hnoted

end Consistent

/-! ## Styles and pruning -/

/-- Style rules change no path and remove no node. -/
theorem styleNode_spec (rules : List (Matcher × Style)) (net : Network) (id : NodeId)
    (sound : net.Sound) :
    (styleNode rules net id).Sound ∧ ∀ other, net.Live other → (styleNode rules net id).Live other := by
  induction rules generalizing net with
  | nil => exact ⟨sound, fun _ h => h⟩
  | cons rule rest ih =>
      obtain ⟨matcher, attributes⟩ := rule
      by_cases haccepts : matcher.accepts net id = true
      · let merged := net.modifyNode id fun node =>
          { node with style := node.style.merge attributes }
        have hstep : styleNode ((matcher, attributes) :: rest) net id = styleNode rest merged id := by
          simp [styleNode, haccepts, merged]
        rw [hstep]
        obtain ⟨hsound, hlive⟩ := ih merged (sound.modifyNode fun _ => rfl)
        exact ⟨hsound, fun other h => hlive other (live_modifyNode.mpr h)⟩
      · have hstep : styleNode ((matcher, attributes) :: rest) net id = styleNode rest net id := by
          simp [styleNode, haccepts]
        rw [hstep]
        exact ih net sound

theorem foldl_styleNode_spec (rules : List (Matcher × Style)) (ids : List NodeId) (net : Network)
    (sound : net.Sound) :
    (ids.foldl (styleNode rules) net).Sound ∧
      ∀ other, net.Live other → (ids.foldl (styleNode rules) net).Live other := by
  induction ids generalizing net with
  | nil => exact ⟨sound, fun _ h => h⟩
  | cons id rest ih =>
      obtain ⟨hsound, hlive⟩ := styleNode_spec rules net id sound
      obtain ⟨hsound', hlive'⟩ := ih _ hsound
      exact ⟨hsound', fun other h => hlive' other (hlive other h)⟩

theorem Consistent.applyStyles (consistent : Consistent depth g) :
    Consistent depth g.applyStyles := by
  unfold Graph.applyStyles
  split
  · exact consistent.noted (noted_note g _)
  · obtain ⟨hsound, hlive⟩ :=
      foldl_styleNode_spec g.styleRules g.net.nodeIds g.net consistent.sound
    exact ⟨hsound, fun id h => hlive id (consistent.scope id h), consistent.bound⟩

/-- Dropping nodes opens no scope. -/
theorem foldl_drop_spec (ids : List NodeId) (g : Graph) (sound : g.net.Sound) :
    (ids.foldl drop g).net.Sound ∧ (ids.foldl drop g).scope = g.scope := by
  induction ids generalizing g with
  | nil => exact ⟨sound, rfl⟩
  | cons id rest ih => exact ih (g.drop id) (sound.removeNode id)

/-- Outside of all declarations no scope is open, so every node may go. -/
theorem Consistent.prune (consistent : Consistent 0 g) : Consistent 0 g.prune.2 := by
  have hclosed : g.scope = [] := List.length_eq_zero_iff.mp (Nat.le_zero.mp consistent.bound)
  obtain ⟨hsound, hscope⟩ := foldl_drop_spec g.prunees g consistent.sound
  exact .of_scope_nil hsound (hscope.trans hclosed)

theorem Consistent.pruneRounds (fuel round : Nat) (g : Graph) (consistent : Consistent 0 g) :
    Consistent 0 (pruneRounds fuel round g).2 := by
  induction fuel generalizing round g with
  | zero => exact consistent
  | succ fuel ih =>
      have hprune := consistent.prune
      unfold Graph.pruneRounds
      simp only
      split
      · exact hprune
      · exact ih (round + 1) _ (hprune.noted (noted_note _ _))

/-! ## The end of a pass -/

/-- The graph at the end of a pass, when the scopes that were left open are closed. -/
def closed (g : Graph) : Graph :=
  if g.scope.isEmpty then g else { g.note (.scopesLeftOpen g.scope.length) with scope := [] }

theorem closed_eq (g : Graph) : g.closed = { g with scope := [], journal := g.closed.journal } := by
  unfold closed
  split
  · rename_i hempty
    rw [← List.isEmpty_iff.mp hempty]
  · rfl

/-- The graph after the second pass has moved the nodes of the relocations in `done`. -/
def relocated (g : Graph) (done : List (NodeId × Path)) : Graph :=
  done.foldl relocate { g.closed with relocations := [] }

theorem endPass_eq (g : Graph) :
    g.endPass =
      if g.pass = some .findRelations then
        { g.relocated g.relocations with provisional := [], pass := none }
      else { g.closed with pass := none } := by
  have hpass : g.closed.pass = g.pass := by rw [closed_eq]
  have hrelocations : g.closed.relocations = g.relocations := by rw [closed_eq]
  rw [← hpass, ← hrelocations]
  show { (if g.closed.pass = some .findRelations then g.closed.foldProvisional else g.closed) with
    pass := none } = _
  split <;> rfl

/-- No node with a relocation is provisional any more. -/
def Still (g : Graph) : Prop :=
  ∀ relocation ∈ g.relocations, g.isProvisional relocation.1 = false

instance (g : Graph) : Decidable g.Still :=
  inferInstanceAs (Decidable (∀ relocation ∈ g.relocations, g.isProvisional relocation.1 = false))

theorem foldl_relocate_of_settled {g : Graph} {relocations : List (NodeId × Path)}
    (settled : ∀ relocation ∈ relocations, g.isProvisional relocation.1 = false) :
    relocations.foldl relocate g = g := by
  induction relocations with
  | nil => rfl
  | cons relocation rest ih =>
      have hfirst := settled relocation List.mem_cons_self
      have hnothing : g.relocate relocation = g := by
        rcases g.relocate_cases relocation.1 relocation.2 with ⟨_, h⟩ | ⟨h, _⟩ | ⟨h, _⟩
        · exact h
        · rw [hfirst] at h
          cases h
        · rw [hfirst] at h
          cases h
      rw [List.foldl_cons, hnothing]
      exact ih fun other hother => settled other (List.mem_cons_of_mem _ hother)

/-- If no such node is left, the end of the second pass leaves the network as it is. -/
theorem Still.net_endPass {g : Graph} (still : g.Still) : g.endPass.net = g.net := by
  have hclosed := closed_eq g
  rw [endPass_eq]
  split
  · show (g.relocated g.relocations).net = g.net
    unfold relocated
    rw [foldl_relocate_of_settled]
    · rw [hclosed]
    · rw [hclosed]
      exact still
  · rw [hclosed]

@[simp] theorem scope_relocate (g : Graph) (relocation : NodeId × Path) :
    (g.relocate relocation).scope = g.scope := by
  obtain ⟨stale, path⟩ := relocation
  rcases g.relocate_cases stale path with ⟨_, heq⟩ | ⟨_, _, heq⟩ | ⟨_, _, heq⟩
  · rw [heq]
  · rw [heq]
    rfl
  · rw [heq]
    cases hfold : foldInto g.nodeCount (g.foldStart stale path) stale path with
    | none => rfl
    | some after =>
        obtain ⟨net, journal, rfl⟩ := foldInto_rest _ _ after stale path hfold
        rfl

theorem scope_relocated (g : Graph) (done : List (NodeId × Path)) : (g.relocated done).scope = [] := by
  have hkeep : ∀ start : Graph, (done.foldl relocate start).scope = start.scope := by
    induction done with
    | nil => exact fun _ => rfl
    | cons first rest ih => exact fun start => (ih _).trans (scope_relocate start first)
  refine (hkeep _).trans ?_
  show g.closed.scope = []
  rw [closed_eq]

theorem sound_relocated (sound : g.net.Sound) (done : List (NodeId × Path)) :
    (g.relocated done).net.Sound := by
  refine (foldl_relocate_spec done _ ?_ (fun _ => True) (fun _ _ _ _ => trivial)
    (fun _ _ _ => trivial)).1
  show g.closed.net.Sound
  rw [closed_eq]
  exact sound

theorem Consistent.endPass (consistent : Consistent depth g) : Consistent depth g.endPass := by
  rw [endPass_eq]
  split
  · exact .of_scope_nil (sound_relocated consistent.sound _) (scope_relocated g _)
  · rw [closed_eq]
    exact .of_scope_nil consistent.sound rfl

theorem consistent_of_reachable (h : Reachable depth g) : Consistent depth g := by
  induction h with
  | empty => exact ⟨sound_empty, by simp [Graph.empty], Nat.le_refl 0⟩
  | ignore _ hok ih =>
      unfold Graph.ignore at hok
      split at hok
      · cases hok
      · cases hok
        exact ⟨ih.sound, ih.scope, ih.bound⟩
  | style _ hok ih =>
      unfold Graph.style at hok
      split at hok
      · cases hok
      · cases hok
        exact ⟨ih.sound, ih.scope, ih.bound⟩
  | beginPass pass _ ih => exact .of_scope_nil ih.sound rfl
  | endPass _ ih => exact ih.endPass
  | enter _ hopen ih => exact ih.enter hopen
  | leave _ ih => exact ih.leave
  | inherit superclass _ ih => exact ih.inherit superclass
  | mix mixin target _ ih => exact ih.mix mixin target
  | applyStyles _ ih => exact ih.applyStyles
  | prune _ ih => exact ih.prune
  | pruneAll _ ih => exact .pruneRounds _ 1 _ ih

/-! ## Walking over declarations is made of operations -/

namespace Reachable

theorem mixAll (h : Reachable depth g) (mixin : Mixin) (targets : List Reference) :
    Reachable depth (g.mixAll mixin targets) := by
  unfold Graph.mixAll
  induction targets generalizing g with
  | nil => exact h
  | cons target rest ih => exact ih (h.mix mixin target)

theorem inheritFrom (h : Reachable depth g) (superclass : Option Reference) :
    Reachable depth (g.inheritFrom superclass) := by
  cases superclass with
  | none => exact h
  | some superclass => exact h.inherit superclass

theorem replayItems (relating : Bool) (items : List Item) (h : Reachable depth g) :
    Reachable depth (replayItems relating items g) := by
  suffices hall : (∀ item depth g, Reachable depth g → Reachable depth (replayItem relating item g)) ∧
      ∀ items depth g, Reachable depth g → Reachable depth (Graph.replayItems relating items g) from
    hall.2 items depth g h
  apply Item.induct
  case classDecl =>
    intro name superclass body ih depth g h
    unfold replayItem
    refine h.declare .classNode name fun inner hinner => ih _ _ ?_
    cases relating
    · exact hinner
    · exact hinner.inheritFrom superclass
  case moduleDecl =>
    intro name body ih depth g h
    unfold replayItem
    exact h.declare .moduleNode name fun inner hinner => ih _ _ hinner
  case mixing =>
    intro mixin targets depth g h
    unfold replayItem
    cases relating
    · exact h
    · exact h.mixAll mixin targets
  case nil => exact fun depth g h => h
  case cons =>
    intro item rest ihItem ihRest depth g h
    exact ihRest depth _ (ihItem depth g h)

theorem foldl_replay (h : Reachable depth g) (files : List (List Item)) :
    Reachable depth (files.foldl replay g) := by
  induction files generalizing g with
  | nil => exact h
  | cons file rest ih => exact ih (h.replayItems _ file)

theorem runPass (h : Reachable depth g) (pass : Pass) (files : List (List Item)) :
    Reachable depth (g.runPass pass files) :=
  ((h.beginPass pass).foldl_replay files).endPass

end Reachable

end Graph

end ClassAtlas
