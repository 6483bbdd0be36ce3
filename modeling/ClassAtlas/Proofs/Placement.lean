import ClassAtlas.Proofs.Registry

/-!
# Folding as a list of placements

A folding goes down a part of the containment, but all that it changes it changes by putting one node
after the other to a path. So a folding is a list of placements (`Network.placements`), carried out in
order, and every node is there when it is placed (`placed_of_foldInto`). The same holds of the
relocations at the end of the second pass.

What one placement keeps is therefore kept by a folding, by all relocations and by the end of a pass
(`endPass_keeps`). Proofs about folding look at one placement and do not follow the descent.
-/

namespace ClassAtlas

namespace Network

variable {net between after : Network} {stale target : NodeId} {path : Path}
  {steps more : List (NodeId × Path)}

/-! ## One placement -/

/-- The node that absorbs another one that is put to a path: the one that has the path already. -/
def absorber? (net : Network) (stale : NodeId) (path : Path) : Option NodeId :=
  (net.lookup path).filter (fun found => found != stale)

/-- The network after a node has been put to a path. -/
def placed (net : Network) (stale : NodeId) (path : Path) : Network :=
  match net.absorber? stale path with
  | none => net.rekey stale path
  | some target => net.absorb stale target

theorem absorber?_eq_some :
    net.absorber? stale path = some target ↔ net.lookup path = some target ∧ target ≠ stale := by
  simp [absorber?, Option.filter_eq_some_iff]

theorem absorber?_eq_none :
    net.absorber? stale path = none ↔ ∀ other, net.lookup path = some other → other = stale := by
  simp [absorber?, Option.filter_eq_none_iff]

theorem placed_of_none (h : net.absorber? stale path = none) :
    net.placed stale path = net.rekey stale path := by
  simp [placed, h]

theorem placed_of_some (h : net.absorber? stale path = some target) :
    net.placed stale path = net.absorb stale target := by
  simp [placed, h]

theorem Sound.placed (sound : net.Sound) (live : net.Live stale) (path : Path) :
    (net.placed stale path).Sound := by
  cases habsorber : net.absorber? stale path with
  | none =>
      rw [placed_of_none habsorber]
      exact sound.rekey live (absorber?_eq_none.mp habsorber)
  | some target =>
      rw [placed_of_some habsorber]
      exact sound.absorb stale (sound.live_of_lookup (absorber?_eq_some.mp habsorber).1)

/-! ## Placements in order -/

/-- The nodes are placed one after the other, each of them there when its turn comes. -/
def Placed : List (NodeId × Path) → Network → Network → Prop
  | [], before, after => before = after
  | (stale, path) :: rest, before, after =>
    before.Live stale ∧ Placed rest (before.placed stale path) after

theorem Placed.append (first : Placed steps net between) (second : Placed more between after) :
    Placed (steps ++ more) net after := by
  induction steps generalizing net with
  | nil =>
      simp only [Placed] at first
      subst first
      exact second
  | cons step rest ih => exact ⟨first.1, ih first.2⟩

theorem placed_single (live : net.Live stale) (path : Path) :
    Placed [(stale, path)] net (net.placed stale path) :=
  ⟨live, rfl⟩

/-- What one placement keeps, any number of them keeps. -/
theorem Placed.keeps {P : Network → Prop} (run : Placed steps net after) (sound : net.Sound)
    (step : ∀ (net : Network) stale path, net.Sound → net.Live stale → P net →
      P (net.placed stale path)) (start : P net) : P after := by
  induction steps generalizing net with
  | nil =>
      simp only [Placed] at run
      exact run ▸ start
  | cons first rest ih =>
      exact ih run.2 (sound.placed run.1 first.2) (step net first.1 first.2 sound run.1 start)

/-- The network after some placements, whether or not the nodes are there. -/
def afterSteps (net : Network) (steps : List (NodeId × Path)) : Network :=
  steps.foldl (fun net step => net.placed step.1 step.2) net

theorem Placed.afterSteps_eq (run : Placed steps net after) : net.afterSteps steps = after := by
  induction steps generalizing net with
  | nil => exact run
  | cons step rest ih => exact ih run.2

/-- The placements that make up the folding of a node: those of the nodes that it contains, each with
its name under the path and in the network that the ones before have left, then its own. -/
def placements : Nat → Network → NodeId → Path → List (NodeId × Path)
  | 0, _, _, _ => []
  | fuel + 1, net, stale, path =>
    (net.targets stale .containment).foldl (fun done child =>
      done ++ placements fuel (net.afterSteps done) child
        (path.child ((net.afterSteps done).pathOf child).name)) [] ++ [(stale, path)]

/-- The placements of a contained node, after those in `done`. -/
def childPlacements (fuel : Nat) (net : Network) (path : Path) (done : List (NodeId × Path))
    (child : NodeId) : List (NodeId × Path) :=
  done ++ placements fuel (net.afterSteps done) child
    (path.child ((net.afterSteps done).pathOf child).name)

theorem placements_succ (fuel : Nat) (net : Network) (stale : NodeId) (path : Path) :
    placements (fuel + 1) net stale path =
      (net.targets stale .containment).foldl (childPlacements fuel net path) [] ++
        [(stale, path)] := rfl

end Network

namespace Graph

open Network

variable {g now after : Graph} {stale : NodeId} {path : Path}

theorem net_place (g : Graph) (stale : NodeId) (path : Path) :
    (g.place stale path).net = g.net.placed stale path := by
  unfold place
  cases hfound : g.net.lookup path with
  | none =>
      rw [placed_of_none (absorber?_eq_none.mpr (by simp [hfound]))]
  | some target =>
      by_cases htarget : target = stale
      · rw [placed_of_none (absorber?_eq_none.mpr (by simp [hfound, htarget]))]
        simp only [if_pos htarget]
      · rw [placed_of_some (absorber?_eq_some.mpr ⟨hfound, htarget⟩)]
        simp only [if_neg htarget]
        split <;> rfl

/-- Folding contained nodes is carrying out their placements, if that is so for each of them. -/
theorem placed_of_foldlM {fuel : Nat} (sound : g.net.Sound)
    (one : ∀ (now after : Graph) (child : NodeId) (place : Path),
      foldInto fuel now child place = some after → now.net.Sound → now.net.Live child →
      Placed (placements fuel now.net child place) now.net after.net)
    (h : (g.net.targets stale .containment).foldlM (foldChild fuel path) g = some after) :
    Placed ((g.net.targets stale .containment).foldl (childPlacements fuel g.net path) []) g.net
      after.net := by
  -- the invariant also says which state it is about, so that the next node is known to be there
  refine (foldlM_foldChild_invariant
    (I := fun done now => done.foldlM (foldChild fuel path) g = some now ∧
      Placed (done.foldl (childPlacements fuel g.net path) []) g.net now.net)
    (g.net.targets stale .containment) ⟨rfl, rfl⟩ ?_ h).2
  rintro done child rest now next hall ⟨hdone, hrun⟩ hnext
  obtain ⟨hsound, hlive⟩ := turn_live sound hall hdone
  constructor
  · rw [List.foldlM_append, hdone]
    simp [hnext]
  · rw [List.foldl_append]
    show Placed (childPlacements fuel g.net path _ child) g.net next.net
    generalize done.foldl (childPlacements fuel g.net path) [] = steps at hrun ⊢
    unfold childPlacements
    rw [hrun.afterSteps_eq]
    exact hrun.append (one now next child _ hnext hsound hlive)

/-- A folding carries out its placements, and every node is there when it is placed. -/
theorem placed_of_foldInto (fuel : Nat) (g after : Graph) (stale : NodeId) (path : Path)
    (h : foldInto fuel g stale path = some after) (sound : g.net.Sound) (live : g.net.Live stale) :
    Placed (placements fuel g.net stale path) g.net after.net := by
  induction fuel generalizing g after stale path with
  | zero => simp [foldInto] at h
  | succ fuel ih =>
      rw [foldInto_succ] at h
      obtain ⟨moved, hmoved, rfl⟩ := Option.map_eq_some_iff.mp h
      have hchildren := placed_of_foldlM sound ih hmoved
      rw [net_place, placements_succ]
      exact hchildren.append (placed_single (last_live sound live hmoved).2 path)

/-! ## Relocations -/

/-- The placements that make up one relocation: none if the node is settled or gone. -/
def relocationSteps (g : Graph) (relocation : NodeId × Path) : List (NodeId × Path) :=
  if g.isProvisional relocation.1 && g.net.nodes.contains relocation.1 then
    placements g.nodeCount g.net relocation.1 relocation.2
  else []

/-- The placements that make up relocations in order. -/
def relocationsSteps : List (NodeId × Path) → Graph → List (NodeId × Path)
  | [], _ => []
  | first :: rest, g => g.relocationSteps first ++ relocationsSteps rest (g.relocate first)

/-- In a forest a relocation carries out its placements. -/
theorem placed_relocate (sound : g.net.Sound) (forest : g.net.Acyclic)
    (relocation : NodeId × Path) :
    Placed (g.relocationSteps relocation) g.net (g.relocate relocation).net := by
  obtain ⟨stale, path⟩ := relocation
  have hcontains : g.net.nodes.contains stale = true ↔ g.net.Live stale :=
    g.net.nodes.contains_iff stale
  rcases g.relocate_cases stale path with ⟨hsettled, heq⟩ | ⟨_, hgone, heq⟩ | ⟨hprov, hlive, heq⟩
  · simp [relocationSteps, hsettled, heq, Placed]
  · simp [relocationSteps, hcontains, hgone, heq, Placed, settle]
  · -- the folding ends, since no more nodes are above one another than there are nodes
    obtain ⟨after, hafter⟩ := foldInto_isSome g.nodeCount (g.foldStart stale path) stale path []
      sound forest hlive (by simp) (by simp) (Nat.le_refl _)
    have hsteps : g.relocationSteps (stale, path) = placements g.nodeCount g.net stale path := by
      simp [relocationSteps, hprov, hcontains.mpr hlive]
    rw [heq, hafter, Option.getD_some, hsteps]
    exact placed_of_foldInto _ (g.foldStart stale path) after stale path hafter sound hlive

theorem acyclic_relocate (sound : g.net.Sound) (forest : g.net.Acyclic)
    (relocation : NodeId × Path) :
    (g.relocate relocation).net.Sound ∧ (g.relocate relocation).net.Acyclic := by
  obtain ⟨hsound, _, _, hforest⟩ := g.relocate_spec relocation sound (fun _ => True)
    (fun _ _ _ _ => trivial) (fun _ => trivial)
  exact ⟨hsound, hforest forest⟩

/-- In a forest relocations carry out their placements, one after the other. -/
theorem placed_relocations (relocations : List (NodeId × Path)) (g : Graph) (sound : g.net.Sound)
    (forest : g.net.Acyclic) :
    Placed (relocationsSteps relocations g) g.net (relocations.foldl relocate g).net := by
  induction relocations generalizing g with
  | nil => rfl
  | cons first rest ih =>
      obtain ⟨hsound, hforest⟩ := acyclic_relocate sound forest first
      exact (placed_relocate sound forest first).append (ih (g.relocate first) hsound hforest)

/-! ## What placements keep -/

section Keeps

variable {P : Network → Prop}
  (step : ∀ (net : Network) stale path, net.Sound → net.Live stale → P net →
    P (net.placed stale path))

include step

/-- A folding that does not end leaves the network alone, so no forest is needed here. -/
theorem relocate_keeps (sound : g.net.Sound) (start : P g.net) (relocation : NodeId × Path) :
    P (g.relocate relocation).net := by
  obtain ⟨stale, path⟩ := relocation
  rcases g.relocate_cases stale path with ⟨_, heq⟩ | ⟨_, _, heq⟩ | ⟨_, hlive, heq⟩
  · rwa [heq]
  · rwa [heq]
  · rw [heq]
    cases hfold : foldInto g.nodeCount (g.foldStart stale path) stale path with
    | none => exact start
    | some after =>
        have hrun := placed_of_foldInto _ _ after stale path hfold sound hlive
        exact hrun.keeps sound step start

theorem relocated_keeps (sound : g.net.Sound) (start : P g.net) (done : List (NodeId × Path)) :
    P (g.relocated done).net := by
  have hall : ∀ h : Graph, h.net.Sound → P h.net → P (done.foldl relocate h).net := by
    induction done with
    | nil => exact fun _ _ hstart => hstart
    | cons first rest ih =>
        intro h hsound hstart
        have hnext := (h.relocate_spec first hsound (fun _ => True) (fun _ _ _ _ => trivial)
          (fun _ => trivial)).1
        exact ih _ hnext (relocate_keeps step hsound hstart first)
  refine hall _ ?_ ?_
  · show g.closed.net.Sound
    rwa [closed_eq]
  · show P g.closed.net
    rwa [closed_eq]

/-- The end of a pass keeps what one placement keeps. -/
theorem endPass_keeps (sound : g.net.Sound) (start : P g.net) : P g.endPass.net := by
  rw [endPass_eq]
  split
  · exact relocated_keeps step sound start g.relocations
  · show P g.closed.net
    rwa [closed_eq]

end Keeps

end Graph

end ClassAtlas
