import ClassAtlas.Proofs.EdgeLaws

/-!
# Superclasses of superclasses

Superclasses may go round in a circle: nothing keeps two classes from naming each other. The search for
an ancestor therefore remembers the nodes that it has met and stops when it comes back to one of them.

The search finds what can be reached at all (`derives_iff`). That it stops too early is ruled out by what
is known of the nodes behind it (`Passed`): none of them has the path that is looked for, and the
superclass of each is behind as well, or is the node that the search stands at. So once the search comes
back, there is nothing ahead that is not behind.
-/

namespace ClassAtlas

namespace Network

variable {net : Network} {path : Path} {seen : List NodeId} {id next : NodeId}

/-- `ancestor` is reached from a node by steps to a superclass, any number of them. -/
def Ancestor (net : Network) (id ancestor : NodeId) : Prop :=
  Relation.ReflTransGen (fun a b => net.Relates a b .inheritance) id ancestor

/-- The nodes in `seen` are behind a search that stands at `id`. -/
structure Passed (net : Network) (path : Path) (seen : List NodeId) (id : NodeId) : Prop where
  other : ∀ node ∈ seen, net.pathOf node ≠ path
  onward : ∀ node ∈ seen, ∀ outer, net.Relates node outer .inheritance → outer ∈ seen ∨ outer = id

namespace Passed

theorem start (net : Network) (path : Path) (id : NodeId) : Passed net path [] id :=
  ⟨by simp, by simp⟩

theorem step (passed : Passed net path seen id) (single : net.SingleSuper)
    (hpath : net.pathOf id ≠ path) (h : net.Relates id next .inheritance) :
    Passed net path (id :: seen) next := by
  refine ⟨fun node hnode => ?_, fun node hnode outer houter => ?_⟩
  · rcases List.mem_cons.mp hnode with rfl | hseen
    · exact hpath
    · exact passed.other node hseen
  · rcases List.mem_cons.mp hnode with rfl | hseen
    · exact .inr (single node outer next houter h)
    · rcases passed.onward node hseen outer houter with hbehind | rfl
      · exact .inl (List.mem_cons_of_mem _ hbehind)
      · exact .inl List.mem_cons_self

/-- A search that comes back has nothing new ahead. -/
theorem closed (passed : Passed net path seen id) (back : id ∈ seen) {ancestor : NodeId}
    (h : net.Ancestor id ancestor) : ancestor ∈ seen := by
  induction h with
  | refl => exact back
  | @tail mid last _ hstep ih =>
      rcases passed.onward mid ih last hstep with hbehind | rfl
      · exact hbehind
      · exact back

end Passed

/-- What the search finds can be reached. -/
theorem ancestor_of_derives (single : net.SingleSuper) (h : net.derives path seen id = true) :
    ∃ ancestor, net.Ancestor id ancestor ∧ net.pathOf ancestor = path := by
  fun_induction net.derives path seen id with
  | case1 seen id hpath => exact ⟨id, .refl, hpath⟩
  | case2 seen id hpath hseen => cases h
  | case3 seen id hpath hfresh ih =>
      obtain ⟨next, _, hnext⟩ := (Option.any_eq_true _ _).mp h
      obtain ⟨ancestor, hreach, hfound⟩ := ih next hnext
      have hstep := single.superclass?_eq_some.mp next.property
      exact ⟨ancestor, .head hstep hreach, hfound⟩

/-- What can be reached is found, whatever is behind the search. -/
theorem derives_of_ancestor (single : net.SingleSuper) (passed : Passed net path seen id)
    {ancestor : NodeId} (h : net.Ancestor id ancestor) (hfound : net.pathOf ancestor = path) :
    net.derives path seen id = true := by
  fun_induction net.derives path seen id with
  | case1 seen id hpath => rfl
  | case2 seen id hpath hseen =>
      exact absurd hfound (passed.other ancestor (passed.closed hseen h))
  | case3 seen id hpath hfresh ih =>
      -- the node itself does not have the path, so there is a step
      rcases Relation.ReflTransGen.cases_head h with rfl | ⟨next, hstep, hrest⟩
      · exact absurd hfound hpath
      · have hnext := single.superclass?_eq_some.mpr hstep
        refine (Option.any_eq_true _ _).mpr ⟨⟨next, hnext⟩, Option.mem_attach _ _, ?_⟩
        exact ih ⟨next, hnext⟩ (passed.step single hpath hstep) hrest

theorem derives_iff (single : net.SingleSuper) :
    net.derives path [] id = true ↔
      ∃ ancestor, net.Ancestor id ancestor ∧ net.pathOf ancestor = path := by
  refine ⟨ancestor_of_derives single, ?_⟩
  rintro ⟨ancestor, hreach, hfound⟩
  exact derives_of_ancestor single (.start net path id) hreach hfound

/-- Steps to superclasses lead to nodes that are there. -/
theorem Ancestor.live {ancestor : NodeId} (h : net.Ancestor id ancestor) (live : net.Live id)
    (ends : ∀ a b, net.Relates a b .inheritance → net.Live b) : net.Live ancestor := by
  rcases Relation.ReflTransGen.cases_tail h with rfl | ⟨last, _, hstep⟩
  · exact live
  · exact ends last ancestor hstep

/-- **Deriving is reachability.** Where no class has two superclasses, a node derives from a path if and
only if a node with that path is reached from it by steps to a superclass, none or any number of them.
The steps may go round in circles. -/
theorem inheritsFrom_iff_ancestor (single : net.SingleSuper)
    (ends : ∀ a b, net.Relates a b .inheritance → net.Live b) (live : net.Live id) (text : String) :
    net.inheritsFrom id (Path.parse text) = true ↔
      ∃ ancestor node, net.Ancestor id ancestor ∧ net.node? ancestor = some node ∧
        node.path = Path.parse text := by
  unfold inheritsFrom
  rw [derives_iff single]
  constructor
  · rintro ⟨ancestor, hreach, hfound⟩
    obtain ⟨node, hnode⟩ := live_iff.mp (hreach.live live ends)
    exact ⟨ancestor, node, hreach, hnode, (pathOf_of_node? hnode).symm.trans hfound⟩
  · rintro ⟨ancestor, node, hreach, hnode, hpath⟩
    exact ⟨ancestor, hreach, (pathOf_of_node? hnode).trans hpath⟩

end Network

namespace Graph

open Network

/-- `A` and `B` derive from each other, and `C` from `B`. -/
def circle : Graph :=
  Graph.empty.build
    [[.classDecl (.relative ["A"]) (some (.relative ["B"])) []],
      [.classDecl (.relative ["B"]) (some (.relative ["A"])) []],
      [.classDecl (.relative ["C"]) (some (.relative ["B"])) []]]

theorem inheritsFrom_of_circle :
    (circle.net.Relates 0 1 .inheritance ∧ circle.net.Relates 1 0 .inheritance) ∧
      circle.net.inheritsFrom 2 (Path.parse "A") = true ∧
      ¬ ∃ ancestor node, circle.net.Ancestor 2 ancestor ∧ circle.net.node? ancestor = some node ∧
        node.path = Path.parse "D" := by
  have hreachable : Reachable 0 circle :=
    (Reachable.empty.runPass .findNodes _).runPass .findRelations _
  have hsound := (consistent_of_reachable hreachable).sound
  have hlive : circle.net.Live 2 := by
    show 2 ∈ _
    decide +kernel
  have hiff := inheritsFrom_iff_ancestor (regular_of_reachable hreachable).single
    (fun a b h => (hsound.ends a b _ h).2) hlive
  have hcircle : circle.net.Relates 0 1 .inheritance ∧ circle.net.Relates 1 0 .inheritance :=
    ⟨hasEdge_iff.mp (by decide +kernel), hasEdge_iff.mp (by decide +kernel)⟩
  have hfirst : circle.net.Relates 2 1 .inheritance := hasEdge_iff.mp (by decide +kernel)
  refine ⟨hcircle, (hiff "A").mpr ⟨0, { path := ⟨["A"]⟩, kind := .classNode }, ?_, ?_, ?_⟩, ?_⟩
  · exact .head hfirst (.single hcircle.2)
  · decide +kernel
  · decide +kernel
  · exact (hiff "D").not.mp (by decide +kernel)

end Graph

end ClassAtlas
