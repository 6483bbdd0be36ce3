import ClassAtlas.Proofs.OutwardWalk
import ClassAtlas.Proofs.PathLaw
import ClassAtlas.Proofs.Placement

/-!
# Folding without a bound

Two things in a build go on for as long as containment does: the way outwards from a node, on which names
are looked up, and the descent of a folding into what lies in a node. Neither would end in a network
where a node lies in itself.

`Folds` is the descent as it is meant, with no bound on its depth: a folding has a result only if its
descent ends. `Passes` are the states in the middle of it, between the placement of one node and that of
the next; it speaks of these states whether or not the descent ends. The size of what is still to be
folded is no measure for it, because a node that has been placed may turn up again in a part that is still
to be visited. What bounds the descent is that containment is a forest in each of these states
(`Passes.forest`), so the nodes on the way down are all different.
-/

namespace ClassAtlas

namespace Graph

open Network

variable {g now after : Graph} {stale : NodeId} {path : Path} {ids : List NodeId}

/-! ## The descent -/

mutual

/-- Folding `stale` into `path` turns the first graph into the second: the contained nodes are listed,
folded one after the other, and then the node itself is placed. -/
inductive Folds : Graph → NodeId → Path → Graph → Prop
  | node {g moved : Graph} {stale : NodeId} {path : Path} :
      FoldsAll g (g.net.targets stale .containment) path moved →
      Folds g stale path (moved.place stale path)

/-- Folding some nodes in order, each into its name under `path`, turns the first graph into the
second. -/
inductive FoldsAll : Graph → List NodeId → Path → Graph → Prop
  | nil {g : Graph} {path : Path} : FoldsAll g [] path g
  | cons {g next after : Graph} {child : NodeId} {rest : List NodeId} {path : Path} :
      Folds g child (path.child (g.net.pathOf child).name) next → FoldsAll next rest path after →
      FoldsAll g (child :: rest) path after

end

/-- A loop over contained nodes keeps its result if folding one of them keeps it. -/
theorem foldlM_foldChild_congr {fuel more : Nat}
    (one : ∀ (g after : Graph) (stale : NodeId) (path : Path),
      foldInto fuel g stale path = some after → foldInto more g stale path = some after)
    (h : ids.foldlM (foldChild fuel path) g = some after) :
    ids.foldlM (foldChild more path) g = some after := by
  induction ids generalizing g with
  | nil => exact h
  | cons child rest ih =>
      rw [List.foldlM_cons] at h ⊢
      obtain ⟨next, hnext, hrest⟩ := Option.bind_eq_some_iff.mp h
      exact Option.bind_eq_some_iff.mpr ⟨next, one g next child _ hnext, ih hrest⟩

/-- A larger bound on the depth changes no result. -/
theorem foldInto_mono {fuel more : Nat} (hle : fuel ≤ more) (g after : Graph) (stale : NodeId)
    (path : Path) (h : foldInto fuel g stale path = some after) :
    foldInto more g stale path = some after := by
  induction fuel generalizing g stale path after more with
  | zero => cases h
  | succ fuel ih =>
      obtain ⟨more, rfl⟩ : ∃ m, more = m + 1 := ⟨more - 1, by omega⟩
      rw [foldInto_succ] at h ⊢
      obtain ⟨moved, hmoved, rfl⟩ := Option.map_eq_some_iff.mp h
      rw [foldlM_foldChild_congr (ih (Nat.le_of_succ_le_succ hle)) hmoved]
      rfl

mutual

theorem Folds.exists_bound {g : Graph} {stale : NodeId} {path : Path} {after : Graph} :
    Folds g stale path after → ∃ fuel, foldInto fuel g stale path = some after
  | .node hall => by
      obtain ⟨fuel, hmoved⟩ := hall.exists_bound
      exact ⟨fuel + 1, by rw [foldInto_succ, hmoved]; rfl⟩

theorem FoldsAll.exists_bound {g : Graph} {ids : List NodeId} {path : Path} {after : Graph} :
    FoldsAll g ids path after → ∃ fuel, ids.foldlM (foldChild fuel path) g = some after
  | .nil => ⟨0, rfl⟩
  | .cons hone hrest => by
      obtain ⟨first, hfirst⟩ := hone.exists_bound
      obtain ⟨second, hsecond⟩ := hrest.exists_bound
      refine ⟨max first second, ?_⟩
      rw [List.foldlM_cons]
      refine Option.bind_eq_some_iff.mpr ⟨_, foldInto_mono (Nat.le_max_left _ _) _ _ _ _ hfirst, ?_⟩
      exact foldlM_foldChild_congr (foldInto_mono (Nat.le_max_right _ _)) hsecond

end

/-- A folding that ends within a bound ends. -/
theorem folds_of_foldInto (fuel : Nat) (g after : Graph) (stale : NodeId) (path : Path)
    (h : foldInto fuel g stale path = some after) : Folds g stale path after := by
  induction fuel generalizing g after stale path with
  | zero => cases h
  | succ fuel ih =>
      have hloop : ∀ (todo : List NodeId) (now moved : Graph),
          todo.foldlM (foldChild fuel path) now = some moved → FoldsAll now todo path moved := by
        intro todo
        induction todo with
        | nil =>
            intro now moved hmoved
            rw [List.foldlM_nil] at hmoved
            rw [← Option.some.inj hmoved]
            exact .nil
        | cons child rest ihRest =>
            intro now moved hmoved
            rw [List.foldlM_cons] at hmoved
            obtain ⟨next, hnext, hrest⟩ := Option.bind_eq_some_iff.mp hmoved
            exact .cons (ih now next child _ hnext) (ihRest next moved hrest)
      rw [foldInto_succ] at h
      obtain ⟨moved, hmoved, rfl⟩ := Option.map_eq_some_iff.mp h
      exact .node (hloop _ g moved hmoved)

/-! ## In the middle of a folding -/

/-- While `stale` is folded into `path`, starting from `g`, the graph is `now`: at the start, in the
middle of the folding of a contained node whose turn has come, or at the end. -/
inductive Passes : Graph → NodeId → Path → Graph → Prop
  | start {g : Graph} {stale : NodeId} {path : Path} : Passes g stale path g
  | inside {g turn now : Graph} {stale child : NodeId} {path : Path} {done rest : List NodeId} :
      g.net.targets stale .containment = done ++ child :: rest → FoldsAll g done path turn →
      Passes turn child (path.child (turn.net.pathOf child).name) now → Passes g stale path now
  | finish {g after : Graph} {stale : NodeId} {path : Path} :
      Folds g stale path after → Passes g stale path after

/-- When the turn of a contained node comes, containment is still a forest. -/
theorem forest_turn {turn : Graph} {child : NodeId} {done rest : List NodeId} (sound : g.net.Sound)
    (forest : g.net.Acyclic) (hall : g.net.targets stale .containment = done ++ child :: rest)
    (h : FoldsAll g done path turn) :
    turn.net.Sound ∧ turn.net.Live child ∧ turn.net.Acyclic := by
  obtain ⟨fuel, hdone⟩ := h.exists_bound
  obtain ⟨hsound, hlive⟩ := turn_live sound hall hdone
  have half := halfway_of_foldlM sound (folded_of_foldInto fuel) done []
    (hall ▸ List.prefix_append done (child :: rest)) (Halfway.start sound) hdone
  exact ⟨hsound, hlive, half.forest forest⟩

/-- A folding that starts in a forest passes through forests only. -/
theorem Passes.forest (passes : Passes g stale path now) (sound : g.net.Sound)
    (live : g.net.Live stale) (forest : g.net.Acyclic) : now.net.Sound ∧ now.net.Acyclic := by
  induction passes with
  | start => exact ⟨sound, forest⟩
  | inside hall hdone _ ih =>
      obtain ⟨hsound, hlive, hforest⟩ := forest_turn sound forest hall hdone
      exact ih hsound hlive hforest
  | finish hfolds =>
      obtain ⟨fuel, hfold⟩ := hfolds.exists_bound
      have hfolded := folded_of_foldInto fuel _ _ _ _ hfold sound live
      exact ⟨hfolded.sound, hfolded.forest forest⟩

/-! ## Relocations -/

theorem acyclic_relocated (sound : g.net.Sound) (forest : g.net.Acyclic)
    (done : List (NodeId × Path)) : (g.relocated done).net.Acyclic := by
  have hclosed : g.closed.net = g.net := by rw [closed_eq]
  refine (foldl_relocate_spec done { g.closed with relocations := [] } ?_ (fun _ => True)
    (fun _ _ _ _ => trivial) (fun _ _ _ => trivial)).2.2 ?_
  · show g.closed.net.Sound
    rwa [hclosed]
  · show g.closed.net.Acyclic
    rwa [hclosed]

/-- In a forest the folding of a relocation ends, and its result is the graph after the relocation. -/
theorem folds_relocated (sound : g.net.Sound) (forest : g.net.Acyclic)
    {done : List (NodeId × Path)} (waits : (g.relocated done).isProvisional stale = true)
    (live : (g.relocated done).net.Live stale) :
    Folds ((g.relocated done).foldStart stale path) stale path
      (g.relocated (done ++ [(stale, path)])) := by
  have hsound := sound_relocated sound done
  have hforest := acyclic_relocated sound forest done
  have hnext : g.relocated (done ++ [(stale, path)]) = (g.relocated done).relocate (stale, path) := by
    simp [relocated]
  obtain ⟨after, hafter⟩ := foldInto_isSome (g.relocated done).nodeCount
    ((g.relocated done).foldStart stale path) stale path [] hsound hforest live (by simp) (by simp)
    (Nat.le_refl _)
  rcases (g.relocated done).relocate_cases stale path with ⟨hsettled, _⟩ | ⟨_, hgone, _⟩ | ⟨_, _, heq⟩
  · rw [waits] at hsettled
    cases hsettled
  · exact absurd live hgone
  · rw [hnext, heq, hafter, Option.getD_some]
    exact folds_of_foldInto _ _ after stale path hafter

/-! ## All states of a build -/

section Build

variable (ignored : List Matcher) (styles : List (Matcher × Style)) (files : List (List Item))

/-- The graphs that a build goes through, between any two operations and also between any two placements
of a folding. -/
inductive Traversed : Graph → Prop
  | observed {g : Graph} : Observed ignored styles files g → Traversed g
  | folding {start now : Graph} {stale : NodeId} {path : Path} :
      (unfolded ignored styles files).Relocates start stale path → Passes start stale path now →
      Traversed now

theorem forest_unfolded :
    (unfolded ignored styles files).net.Sound ∧ (unfolded ignored styles files).net.Acyclic := by
  obtain ⟨hstanding, hqueued⟩ := walkLaw_queued.unfolded ignored styles files
  exact ⟨hstanding.sound, hqueued.follows.acyclic⟩

theorem acyclic_built : (built ignored styles files).net.Acyclic := by
  obtain ⟨hsound, hforest⟩ := forest_unfolded ignored styles files
  rw [built_eq, endPass_eq, if_pos pass_unfolded]
  exact acyclic_relocated hsound hforest _

variable {ignored styles files}

theorem Observed.acyclic (observed : Observed ignored styles files g) : g.net.Acyclic := by
  refine observed.law ?_ ?_ walkLaw_queued (fun g queued => queued.follows.acyclic)
    (acyclic_built ignored styles files)
  · exact fun net id attributes forest => forest.mono fun a b hab => hab
  · exact fun net id sound forest => forest.mono fun a b hab => (sound.relates_removeNode.mp hab).1

theorem Traversed.forest (traversed : Traversed ignored styles files g) :
    g.net.Sound ∧ g.net.Acyclic := by
  cases traversed with
  | observed hobserved => exact ⟨hobserved.sound, hobserved.acyclic⟩
  | folding hrelocates hpasses =>
      obtain ⟨done, rest, _, _, hlive, rfl⟩ := hrelocates
      obtain ⟨hsound, hforest⟩ := forest_unfolded ignored styles files
      exact hpasses.forest (sound_relocated hsound done) hlive (acyclic_relocated hsound hforest done)

/-- **Containment stays a forest.** In every state of a build, also between two placements of a folding,
no node lies in itself. So the way outwards from a node ends, and the bounded walk goes all of it; and the
descent of every folding ends, with the graph after the relocation as its result. -/
theorem containment_forest_of_build (ignored : List Matcher) (styles : List (Matcher × Style))
    (files : List (List Item)) :
    (∀ g, Traversed ignored styles files g → g.net.Acyclic ∧
      ∀ id, g.net.Live id → ∃ ids, g.net.Outward id ids ∧ g.net.scopesFrom (some id) = ids) ∧
    ∀ done stale path rest,
      (unfolded ignored styles files).relocations = done ++ (stale, path) :: rest →
      ((unfolded ignored styles files).relocated done).isProvisional stale = true →
      ((unfolded ignored styles files).relocated done).net.Live stale →
      Folds (((unfolded ignored styles files).relocated done).foldStart stale path) stale path
        ((unfolded ignored styles files).relocated (done ++ [(stale, path)])) := by
  constructor
  · intro g traversed
    obtain ⟨hsound, hforest⟩ := traversed.forest
    refine ⟨hforest, fun id hlive => ?_⟩
    obtain ⟨ids, hids⟩ := exists_outward hsound hforest hlive
    exact ⟨ids, hids, hids.scopesFrom_eq hsound hforest hlive⟩
  · intro done stale path rest _ hwaits hlive
    obtain ⟨hsound, hforest⟩ := forest_unfolded ignored styles files
    exact folds_relocated hsound hforest hwaits hlive

/-- A class `X::Y` in `M` with another `X::Y` in its body. The first pass takes the inner one for the place
of the outer one, so that `X::Y` is folded into itself. -/
def nestedName : List (List Item) :=
  [[.moduleDecl (.relative ["M"])
      [.classDecl (.relative ["X", "Y"]) none
        [.moduleDecl (.relative ["X"]) [], .classDecl (.relative ["X", "Y"]) none []]],
    .moduleDecl (.relative ["M"]) [.moduleDecl (.relative ["X"]) []]]]

theorem containment_forest_of_nestedName :
    (unfolded [] [] nestedName).relocations.head? = some (1, ⟨["X", "Y", "X", "Y"]⟩) ∧
      (unfolded [] [] nestedName).net.pathOf 1 = ⟨["X", "Y"]⟩ ∧
      ∃ after, Folds (((unfolded [] [] nestedName).relocated []).foldStart 1 ⟨["X", "Y", "X", "Y"]⟩) 1
        ⟨["X", "Y", "X", "Y"]⟩ after ∧ after.net.Acyclic := by
  have hfirst : (unfolded [] [] nestedName).relocations.head? =
      some (1, ⟨["X", "Y", "X", "Y"]⟩) := by decide +kernel
  have hwaits : ((unfolded [] [] nestedName).relocated []).isProvisional 1 = true := by
    decide +kernel
  have hlive : ((unfolded [] [] nestedName).relocated []).net.Live 1 := by
    show 1 ∈ _
    decide +kernel
  obtain ⟨rest, hrest⟩ := List.head?_eq_some_iff.mp hfirst
  obtain ⟨hforest, hends⟩ := containment_forest_of_build [] [] nestedName
  have hfolds := hends [] 1 _ rest hrest hwaits hlive
  refine ⟨hfirst, by decide +kernel, _, hfolds, (hforest _ ?_).1⟩
  exact .folding ⟨[], rest, hrest, hwaits, hlive, rfl⟩ (.finish hfolds)

end Build

end Graph

end ClassAtlas
