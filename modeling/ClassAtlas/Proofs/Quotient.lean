import ClassAtlas.Proofs.EdgeLaws
import ClassAtlas.Proofs.PathLaw

/-!
# Folding as a quotient

At the end of the second pass nodes are merged: an absorbed node is gone, and another one stands for
it, until that one is absorbed itself. `heir` follows a node through all merges to the one that stands
for it in the end. The folds are then a quotient of the network along this map (`Network.Quotient`): no
node is new, those that stay keep their kind and style, and a mixin joins two nodes afterwards exactly
if it joined two nodes that they stand for. A class has one superclass at most, so of the superclasses
that are merged into one class only one can stay; but none is made up, and a class that stays keeps the
one that it has.

One placement is a quotient (`Sound.quotient_placed`), quotients compose (`Quotient.trans`), and the
folds are a list of placements.
-/

namespace ClassAtlas

namespace Network

variable {net before between after : Network} {f k : NodeId → NodeId} {stale target : NodeId}
  {path : Path} {steps : List (NodeId × Path)}

/-- The kind and the style of a node. -/
def look? (net : Network) (id : NodeId) : Option (Kind × Style) :=
  (net.node? id).map (fun node => (node.kind, node.style))

theorem look?_eq_content? (net : Network) (id : NodeId) :
    net.look? id = (net.content? id).map (fun node => (node.kind, node.style)) := by
  unfold look? content?
  cases net.node? id <;> rfl

/-- `after` is the quotient of `before` in which `f id` stands for `id`. -/
structure Quotient (before after : Network) (f : NodeId → NodeId) : Prop where
  /-- No node is new. -/
  live : ∀ id, after.Live id → before.Live id
  /-- A node that stays stands for itself. -/
  fixed : ∀ id, after.Live id → f id = id
  /-- A node stands for every node that was there. -/
  lands : ∀ id, before.Live id → after.Live (f id)
  /-- A node that stays keeps its kind and style. -/
  look : ∀ id, after.Live id → after.look? id = before.look? id
  /-- The mixins are those from before, between the nodes that stand for their ends. -/
  mixins : ∀ relation, relation = .inclusion ∨ relation = .extension → ∀ a b,
    after.Relates a b relation ↔ ∃ a' b', before.Relates a' b' relation ∧ f a' = a ∧ f b' = b ∧ a ≠ b
  /-- Every superclass is one from before. -/
  inherited : ∀ a b, after.Relates a b .inheritance →
    ∃ a' b', before.Relates a' b' .inheritance ∧ f a' = a ∧ f b' = b ∧ a ≠ b
  /-- A class that stays keeps its superclass, unless it is to stand for that itself. -/
  superclass : ∀ a b, before.Relates a b .inheritance → after.Live a → f b ≠ a →
    after.Relates a (f b) .inheritance

namespace Quotient

theorem refl (sound : net.Sound) : Quotient net net id where
  live := fun _ h => h
  fixed := fun _ _ => rfl
  lands := fun _ h => h
  look := fun _ _ => rfl
  mixins := fun relation _ a b => by
    constructor
    · intro h
      refine ⟨a, b, h, rfl, rfl, ?_⟩
      rintro rfl
      exact sound.loopless a _ h
    · rintro ⟨_, _, h, rfl, rfl, _⟩
      exact h
  inherited := fun a b h => by
    refine ⟨a, b, h, rfl, rfl, ?_⟩
    rintro rfl
    exact sound.loopless a _ h
  superclass := fun _ _ h _ _ => h

/-- A quotient of a quotient is one. -/
theorem trans (first : Quotient before between f) (second : Quotient between after k) :
    Quotient before after (k ∘ f) where
  live := fun id h => first.live id (second.live id h)
  fixed := fun id h => by
    show k (f id) = id
    rw [first.fixed id (second.live id h), second.fixed id h]
  lands := fun id h => second.lands _ (first.lands id h)
  look := fun id h => (second.look id h).trans (first.look id (second.live id h))
  mixins := fun relation hmixin a b => by
    rw [second.mixins relation hmixin]
    constructor
    · rintro ⟨a', b', hmid, rfl, rfl, hne⟩
      obtain ⟨a'', b'', hfirst, rfl, rfl, _⟩ := (first.mixins relation hmixin a' b').mp hmid
      exact ⟨a'', b'', hfirst, rfl, rfl, hne⟩
    · rintro ⟨a'', b'', hfirst, rfl, rfl, hne⟩
      -- ends that differ in the end differ in between
      have hmid : f a'' ≠ f b'' := fun h => hne (congrArg k h)
      exact ⟨f a'', f b'', (first.mixins relation hmixin _ _).mpr ⟨a'', b'', hfirst, rfl, rfl, hmid⟩,
        rfl, rfl, hne⟩
  inherited := fun a b h => by
    obtain ⟨a', b', hmid, rfl, rfl, hne⟩ := second.inherited a b h
    obtain ⟨a'', b'', hfirst, rfl, rfl, _⟩ := first.inherited a' b' hmid
    exact ⟨a'', b'', hfirst, rfl, rfl, hne⟩
  superclass := fun a b h hlive hne => by
    have hmid : f b ≠ a := by
      intro heq
      apply hne
      show k (f b) = a
      rw [heq, second.fixed a hlive]
    exact second.superclass a (f b) (first.superclass a b h (second.live a hlive) hmid) hlive hne

end Quotient

/-! ## One placement -/

theorem Sound.quotient_rekey (sound : net.Sound) (stale : NodeId) (path : Path) :
    Quotient net (net.rekey stale path) id := by
  have hrelates : ∀ a b relation, relation ≠ .containment →
      ((net.rekey stale path).Relates a b relation ↔ net.Relates a b relation) :=
    fun a b relation h => sound.relates_rekey_of_ne (.inr h)
  have hself : Quotient net net id := .refl sound
  refine ⟨fun _ h => live_rekey.mp h, fun _ _ => rfl, fun _ h => live_rekey.mpr h, ?_, ?_, ?_, ?_⟩
  · intro id _
    unfold look?
    rw [node?_rekey]
    by_cases hid : id = stale
    · rw [if_pos hid, Option.map_map]
      rfl
    · rw [if_neg hid]
  · intro relation hmixin a b
    rw [hrelates a b relation (by rcases hmixin with rfl | rfl <;> simp)]
    exact hself.mixins relation hmixin a b
  · intro a b h
    exact hself.inherited a b ((hrelates a b _ (by simp)).mp h)
  · intro a b h _ _
    exact (hrelates a b _ (by simp)).mpr h

theorem Sound.quotient_absorb (sound : net.Sound) (live : net.Live target) (apart : target ≠ stale) :
    Quotient net (net.absorb stale target) (standIn stale target) := by
  have hcontent := sound.content?_absorb stale live
  have hlive : ∀ id, (net.absorb stale target).Live id ↔ id ≠ stale ∧ net.Live id :=
    fun id => sound.live_absorb stale live
  refine ⟨fun id h => ((hlive id).mp h).2, ?_, ?_, ?_, ?_, ?_, ?_⟩
  · exact fun id h => standIn_of_ne ((hlive id).mp h).1
  · intro id h
    by_cases hid : id = stale
    · rw [hid, standIn_self]
      exact (hlive target).mpr ⟨apart, live⟩
    · rw [standIn_of_ne hid]
      exact (hlive id).mpr ⟨hid, h⟩
  · intro id h
    rw [look?_eq_content?, look?_eq_content?, hcontent, if_neg ((hlive id).mp h).1]
  · intro relation hmixin a b
    exact sound.mixes_absorb live apart (by rcases hmixin with rfl | rfl <;> simp)
      (by rcases hmixin with rfl | rfl <;> simp)
  · exact fun a b h => sound.of_relates_absorb live h
  · intro a b h ha hne
    exact sound.relates_absorb_of_source live apart h (by simp) ((hlive a).mp ha).1 (Ne.symm hne)

/-- The node that stands for another one after one placement. -/
def nextHeir (net : Network) (stale : NodeId) (path : Path) (id : NodeId) : NodeId :=
  match net.absorber? stale path with
  | none => id
  | some target => standIn stale target id

theorem Sound.quotient_placed (sound : net.Sound) (stale : NodeId) (path : Path) :
    Quotient net (net.placed stale path) (net.nextHeir stale path) := by
  unfold nextHeir
  cases habsorber : net.absorber? stale path with
  | none =>
      rw [placed_of_none habsorber]
      exact sound.quotient_rekey stale path
  | some target =>
      obtain ⟨hfound, happart⟩ := absorber?_eq_some.mp habsorber
      rw [placed_of_some habsorber]
      exact sound.quotient_absorb (sound.live_of_lookup hfound) happart

/-! ## Placements in order -/

/-- The merges in the course of some placements, in order: which node is absorbed by which. -/
def merges : Network → List (NodeId × Path) → List (NodeId × NodeId)
  | _, [] => []
  | net, (stale, path) :: rest =>
    ((net.absorber? stale path).map (stale, ·)).toList ++ merges (net.placed stale path) rest

/-- The node that stands for another one after some merges. -/
def heir (merges : List (NodeId × NodeId)) (id : NodeId) : NodeId :=
  merges.foldl (fun id merge => standIn merge.1 merge.2 id) id

theorem heir_merges_cons (net : Network) (stale : NodeId) (path : Path)
    (rest : List (NodeId × Path)) :
    heir (net.merges ((stale, path) :: rest)) =
      heir ((net.placed stale path).merges rest) ∘ net.nextHeir stale path := by
  funext id
  show heir (((net.absorber? stale path).map (stale, ·)).toList ++ _) id =
    heir _ (net.nextHeir stale path id)
  unfold heir nextHeir
  cases net.absorber? stale path <;> rfl

/-- Placements are a quotient. -/
theorem Placed.quotient (run : Placed steps before after) (sound : before.Sound) :
    Quotient before after (heir (before.merges steps)) := by
  induction steps generalizing before with
  | nil =>
      simp only [Placed] at run
      subst run
      exact .refl sound
  | cons step rest ih =>
      rw [heir_merges_cons]
      exact (sound.quotient_placed step.1 step.2).trans (ih run.2 (sound.placed run.1 step.2))

/-- What the merges say about the nodes: those that go are the ones that are merged, each into a node
that was there, and the same node stands for both in the end. -/
structure Merged (before after : Network) (merges : List (NodeId × NodeId)) : Prop where
  gone : ∀ id, before.Live id → (¬ after.Live id ↔ ∃ target, (id, target) ∈ merges)
  ends : ∀ merge ∈ merges, before.Live merge.1 ∧ before.Live merge.2
  heir : ∀ merge ∈ merges, heir merges merge.1 = heir merges merge.2

theorem Merged.refl (net : Network) : Merged net net [] where
  gone := fun id h => by simp [h]
  ends := by simp
  heir := by simp

/-- One more placement before the others: nothing is absorbed, or `stale` is and does not come back. -/
theorem Merged.cons {merges : List (NodeId × NodeId)} (sound : before.Sound)
    (live : before.Live stale) (rest : Merged (before.placed stale path) after merges)
    (later : Quotient (before.placed stale path) after (Network.heir merges)) :
    Merged before after
      (((before.absorber? stale path).map (stale, ·)).toList ++ merges) := by
  cases habsorber : before.absorber? stale path with
  | none =>
      rw [placed_of_none habsorber] at rest
      have hends := rest.ends
      simp only [live_rekey] at hends
      exact ⟨fun id h => rest.gone id (live_rekey.mpr h), hends, rest.heir⟩
  | some target =>
      obtain ⟨hfound, happart⟩ := absorber?_eq_some.mp habsorber
      have htarget := sound.live_of_lookup hfound
      rw [placed_of_some habsorber] at rest later
      show Merged before after ((stale, target) :: merges)
      have hlive : ∀ id, (before.absorb stale target).Live id ↔ id ≠ stale ∧ before.Live id :=
        fun id => sound.live_absorb stale htarget
      have hkept : ∀ id, (before.absorb stale target).Live id →
          Network.heir ((stale, target) :: merges) id = Network.heir merges id := by
        intro id h
        show Network.heir merges (standIn stale target id) = _
        rw [standIn_of_ne ((hlive id).mp h).1]
      refine ⟨fun id h => ?_, ?_, ?_⟩
      · by_cases hid : id = stale
        · subst hid
          have hgone : ¬ after.Live id := fun h => ((hlive id).mp (later.live id h)).1 rfl
          exact ⟨fun _ => ⟨target, List.mem_cons_self⟩, fun _ => hgone⟩
        · rw [rest.gone id ((hlive id).mpr ⟨hid, h⟩)]
          simp [hid]
      · intro merge hmem
        rcases List.mem_cons.mp hmem with rfl | h
        · exact ⟨live, htarget⟩
        · obtain ⟨hfirst, hsecond⟩ := rest.ends merge h
          exact ⟨((hlive _).mp hfirst).2, ((hlive _).mp hsecond).2⟩
      · intro merge hmem
        rcases List.mem_cons.mp hmem with rfl | h
        · show Network.heir merges (standIn stale target stale) = _
          rw [standIn_self, hkept target ((hlive target).mpr ⟨happart, htarget⟩)]
        · obtain ⟨hfirst, hsecond⟩ := rest.ends merge h
          rw [hkept _ hfirst, hkept _ hsecond]
          exact rest.heir merge h

theorem Placed.merged (run : Placed steps before after) (sound : before.Sound) :
    Merged before after (before.merges steps) := by
  induction steps generalizing before with
  | nil =>
      simp only [Placed] at run
      subst run
      exact .refl before
  | cons step rest ih =>
      have hsound := sound.placed run.1 step.2
      exact .cons sound run.1 (ih run.2 hsound) (run.2.quotient hsound)

end Network

namespace Graph

open Network

/-- The placements at the end of the second pass. -/
def foldSteps (g : Graph) : List (NodeId × Path) :=
  relocationsSteps g.relocations { g.closed with relocations := [] }

/-- The merges at the end of the second pass. -/
def foldMerges (g : Graph) : List (NodeId × NodeId) :=
  g.net.merges g.foldSteps

/-- The node that stands for another one after the second pass. -/
def foldHeir (g : Graph) : NodeId → NodeId :=
  heir g.foldMerges

/-- In a forest the end of the second pass carries out its placements. -/
theorem placed_endPass {g : Graph} (pass : g.pass = some .findRelations) (sound : g.net.Sound)
    (forest : g.net.Acyclic) : Placed g.foldSteps g.net g.endPass.net := by
  have hnet : g.closed.net = g.net := by rw [closed_eq]
  rw [endPass_eq, if_pos pass, ← hnet]
  refine placed_relocations g.relocations { g.closed with relocations := [] } ?_ ?_
  · show g.closed.net.Sound
    rwa [hnet]
  · show g.closed.net.Acyclic
    rwa [hnet]

theorem placed_built (ignored : List Matcher) (styles : List (Matcher × Style))
    (files : List (List Item)) :
    (unfolded ignored styles files).net.Sound ∧
      Placed (unfolded ignored styles files).foldSteps (unfolded ignored styles files).net
        (built ignored styles files).net := by
  obtain ⟨hstanding, hqueued⟩ := walkLaw_queued.unfolded ignored styles files
  exact ⟨hstanding.sound, placed_endPass pass_unfolded hstanding.sound hqueued.follows.acyclic⟩

/-- **The folds are a quotient.** Carrying out the placements in order leads from the graph before the
second pass ends to the one after it. The nodes that are merged are those that go, and the same node
stands in the end for a merged node and for the one that absorbs it. Along this map the network
afterwards is the quotient of the one before, and a class that stays keeps its superclass. -/
theorem quotient_built (ignored : List Matcher) (styles : List (Matcher × Style))
    (files : List (List Item)) :
    let before := unfolded ignored styles files
    let after := built ignored styles files
    before.net.afterSteps before.foldSteps = after.net ∧
      Merged before.net after.net before.foldMerges ∧
      Quotient before.net after.net before.foldHeir ∧
      ∀ a b, before.net.superclass? a = some b → after.net.Live a → before.foldHeir b ≠ a →
        after.net.superclass? a = some (before.foldHeir b) := by
  obtain ⟨hsound, hrun⟩ := placed_built ignored styles files
  have hquotient := hrun.quotient hsound
  refine ⟨hrun.afterSteps_eq, hrun.merged hsound, hquotient, ?_⟩
  intro a b hsuper hlive hne
  have hbefore := (regular_of_reachable (reachable_unfolded ignored styles files)).single
  have hafter := (regular_of_reachable (reachable_built ignored styles files)).single
  rw [hbefore.superclass?_eq_some] at hsuper
  rw [hafter.superclass?_eq_some]
  exact hquotient.superclass a b hsuper hlive hne

/-- A class `X::Y` in `M`, which stands before `M::X`, and a class `Z` that derives from `X::Y` and includes
a module that is moved along with it. -/
def derivedEarly : List (List Item) :=
  [[.moduleDecl (.relative ["M"])
      [.classDecl (.relative ["X", "Y"]) none [.moduleDecl (.relative ["K"]) []]],
    .classDecl (.relative ["Z"]) (some (.absolute ["X", "Y"]))
      [.mixing .including [.absolute ["X", "Y", "K"]]],
    .moduleDecl (.relative ["M"]) [.moduleDecl (.relative ["X"]) []]]]

theorem quotient_of_derivedEarly :
    (unfolded [] [] derivedEarly).foldMerges = [(2, 6), (1, 5)] ∧
      (unfolded [] [] derivedEarly).net.superclass? 3 = some 1 ∧
      (built [] [] derivedEarly).net.superclass? 3 = some 5 ∧
      (built [] [] derivedEarly).net.Relates 3 6 .inclusion := by
  obtain ⟨_, _, hquotient, hsupers⟩ := quotient_built [] [] derivedEarly
  have hmerges : (unfolded [] [] derivedEarly).foldMerges = [(2, 6), (1, 5)] := by decide +kernel
  have hsuper : (unfolded [] [] derivedEarly).net.superclass? 3 = some 1 := by decide +kernel
  have hmixin : (unfolded [] [] derivedEarly).net.Relates 3 2 .inclusion :=
    hasEdge_iff.mp (by decide +kernel)
  have hlive : (built [] [] derivedEarly).net.Live 3 := by
    rw [live_iff]
    exact ⟨{ path := ⟨["Z"]⟩, kind := .classNode }, by decide +kernel⟩
  refine ⟨hmerges, hsuper, ?_, ?_⟩
  · have hheir : (unfolded [] [] derivedEarly).foldHeir 1 = 5 := by
      unfold foldHeir
      rw [hmerges]
      decide
    rw [← hheir]
    exact hsupers 3 1 hsuper hlive (by rw [hheir]; decide)
  · refine (hquotient.mixins .inclusion (.inl rfl) 3 6).mpr ⟨3, 2, hmixin, ?_, ?_, by decide⟩
    · exact hquotient.fixed 3 hlive
    · unfold foldHeir
      rw [hmerges]
      decide

end Graph

end ClassAtlas
