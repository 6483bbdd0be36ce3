import ClassAtlas.Proofs.Reachable

/-!
# Declared paths

Each declaration that a walk meets gets a path. Both passes make a node for every path they give, so
before the last folds the nodes are those of the paths that either pass has given
(`known_secondWalk`).
-/

namespace ClassAtlas

namespace Graph

open Network

/-! ## The paths that a walk gives -/

mutual

/-- The paths that a declaration and those in its body get, in order. -/
def declaredByItem (relating : Bool) : Item → Graph → List Path
  | .classDecl name superclass body, g =>
    match g.enter .classNode name with
    | none => []
    | some (path, inner) =>
      path :: declaredByItems relating body (if relating then inner.inheritFrom superclass else inner)
  | .moduleDecl name body, g =>
    match g.enter .moduleNode name with
    | none => []
    | some (path, inner) => path :: declaredByItems relating body inner
  | .mixing _ _, _ => []

/-- The paths that declarations get in the course of a walk. -/
def declaredByItems (relating : Bool) : List Item → Graph → List Path
  | [], _ => []
  | item :: rest, g =>
    declaredByItem relating item g ++ declaredByItems relating rest (replayItem relating item g)

end

/-- The paths that the declarations of all files get in the pass in progress. -/
def declaredPaths : Graph → List (List Item) → List Path
  | _, [] => []
  | g, file :: rest =>
    declaredByItems (g.pass == some .findRelations) file g ++ declaredPaths (g.replay file) rest

/-- A walk that has given these paths: they have nodes now, and no other path has got one. -/
structure Walked (g h : Graph) (paths : List Path) : Prop where
  scope : h.scope = g.scope
  pass : h.pass = g.pass
  known : ∀ path, h.net.Known path ↔ g.net.Known path ∨ path ∈ paths

namespace Walked

variable {g h k : Graph} {first second : List Path}

theorem of_kept (kept : Kept g h) : Walked g h [] where
  scope := kept.scope
  pass := kept.pass
  known := fun path => by
    unfold Known
    rw [kept.lookup path]
    simp

theorem trans (before : Walked g h first) (after : Walked h k second) :
    Walked g k (first ++ second) where
  scope := after.scope.trans before.scope
  pass := after.pass.trans before.pass
  known := fun path => by
    rw [after.known, before.known, List.mem_append, or_assoc]

/-- A declaration around a body that is walked over. -/
theorem declare {inner : Graph} {kind : Kind} {name : Reference} {path : Path} {body : Graph → Graph}
    (hopen : g.enter kind name = some (path, inner)) (inside : Walked inner (body inner) first) :
    Walked g (g.declare kind name body).2 (path :: first) := by
  obtain ⟨outer, id, _, entered⟩ := entered_of_enter hopen
  have heq : (g.declare kind name body).2 = (body inner).leave := by
    unfold Graph.declare
    rw [hopen]
  rw [heq]
  refine ⟨?_, inside.pass.trans entered.pass, fun other => ?_⟩
  · show (body inner).scope.tail = g.scope
    rw [inside.scope, entered.scope, List.tail_cons]
  · show (body inner).net.Known other ↔ _
    rw [inside.known, entered.known_iff, or_assoc, List.mem_cons]

theorem declare_nothing {kind : Kind} {name : Reference} {body : Graph → Graph}
    (hopen : g.enter kind name = none) : Walked g (g.declare kind name body).2 [] := by
  have heq : (g.declare kind name body).2 = g := by
    unfold Graph.declare
    rw [hopen]
  rw [heq]
  exact .of_kept (.refl g)

end Walked

theorem walked_replayItems (relating : Bool) (items : List Item) (g : Graph) :
    Walked g (replayItems relating items g) (declaredByItems relating items g) := by
  suffices hall : (∀ item g, Walked g (replayItem relating item g) (declaredByItem relating item g)) ∧
      ∀ items g, Walked g (replayItems relating items g) (declaredByItems relating items g) from
    hall.2 items g
  apply Item.induct
  case classDecl =>
    intro name superclass body ih g
    unfold replayItem declaredByItem
    cases hopen : g.enter .classNode name with
    | none => exact .declare_nothing hopen
    | some entered =>
        refine .declare hopen ?_
        -- recording a superclass gives no path
        cases relating with
        | false => exact ih entered.2
        | true => exact (Walked.of_kept (.inheritFrom entered.2 superclass)).trans (ih _)
  case moduleDecl =>
    intro name body ih g
    unfold replayItem declaredByItem
    cases hopen : g.enter .moduleNode name with
    | none => exact .declare_nothing hopen
    | some entered => exact .declare hopen (ih entered.2)
  case mixing =>
    intro mixin targets g
    unfold replayItem declaredByItem
    cases relating with
    | false => exact .of_kept (.refl g)
    | true => exact .of_kept (.mixAll g mixin targets)
  case nil => exact fun g => .of_kept (.refl g)
  case cons =>
    intro item rest ihItem ihRest g
    unfold replayItems declaredByItems
    exact (ihItem g).trans (ihRest _)

theorem walked_foldl_replay (files : List (List Item)) (g : Graph) :
    Walked g (files.foldl replay g) (declaredPaths g files) := by
  induction files generalizing g with
  | nil => exact .of_kept (.refl g)
  | cons file rest ih => exact (walked_replayItems _ file g).trans (ih (g.replay file))

/-! ## The two walks of a build -/

/-- The graph after the first walk. -/
def firstWalk (files : List (List Item)) : Graph :=
  files.foldl replay (Graph.empty.beginPass .findNodes)

/-- The start of the second walk. -/
def secondStart (files : List (List Item)) : Graph :=
  (Graph.empty.runPass .findNodes files).beginPass .findRelations

/-- The graph after the second walk, before the last folds. -/
def secondWalk (files : List (List Item)) : Graph :=
  files.foldl replay (secondStart files)

/-- The paths that the first walk gives. -/
def firstPaths (files : List (List Item)) : List Path :=
  declaredPaths (Graph.empty.beginPass .findNodes) files

/-- The paths that the second walk gives. -/
def secondPaths (files : List (List Item)) : List Path :=
  declaredPaths (secondStart files) files

theorem build_eq (files : List (List Item)) : Graph.empty.build files = (secondWalk files).endPass :=
  rfl

theorem walked_secondWalk (files : List (List Item)) :
    Walked (secondStart files) (secondWalk files) (secondPaths files) :=
  walked_foldl_replay files (secondStart files)

theorem sound_secondWalk (files : List (List Item)) : (secondWalk files).net.Sound :=
  (consistent_of_reachable (((Reachable.empty.runPass .findNodes files).beginPass
    .findRelations).foldl_replay files)).sound

theorem walked_firstWalk (files : List (List Item)) :
    Walked (Graph.empty.beginPass .findNodes) (firstWalk files) (firstPaths files) :=
  walked_foldl_replay files (Graph.empty.beginPass .findNodes)

/-- The end of the first pass folds nothing. -/
theorem secondStart_eq (files : List (List Item)) :
    ∃ journal, secondStart files =
      { firstWalk files with
        scope := [], pass := some .findRelations, rulesFrozen := true, journal } := by
  have hend : (firstWalk files).endPass = { (firstWalk files).closed with pass := none } := by
    rw [endPass_eq, (walked_firstWalk files).pass, if_neg (by decide)]
  refine ⟨((firstWalk files).closed.note (.passBegun .findRelations)).journal, ?_⟩
  show (firstWalk files).endPass.beginPass .findRelations = _
  rw [hend, closed_eq]
  rfl

/-- Before the folds the nodes are those of the paths that either walk has given. -/
theorem known_secondWalk (files : List (List Item)) (path : Path) :
    (secondWalk files).net.Known path ↔ path ∈ firstPaths files ∨ path ∈ secondPaths files := by
  have hempty : ¬ (Graph.empty.beginPass .findNodes).net.Known path := by
    rintro ⟨id, h⟩
    cases h
  obtain ⟨journal, hstart⟩ := secondStart_eq files
  rw [(walked_secondWalk files).known, hstart, (walked_firstWalk files).known]
  exact or_congr_left (or_iff_right hempty)

end Graph

end ClassAtlas
