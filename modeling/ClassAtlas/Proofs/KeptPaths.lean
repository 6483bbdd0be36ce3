import Mathlib.Tactic.Tauto
import ClassAtlas.Proofs.Quotient

/-!
# Declared paths and the nodes that remain

Before the last folds the nodes are those of the paths that either pass has given. The folds then move
the nodes at and under the provisional ones that have a place elsewhere, and leave all others alone.

So whether the second pass and the finished graph agree is decided by the moved nodes alone. They need
not agree, in either direction, and the two main results say exactly when they do.

* A path of the second pass is lost if its node is moved and no moved node ends there. A name that is
  declared twice, once where its first part is known and once where it is not, loses the second one.
* A node has a path that the second pass does not give if only the first pass gives that path and the
  node is not moved, or if it is moved to such a path.

The same can be told from the second walk alone. Its folds are a list of placements, and a placement
takes a node from one path to another. A path has a node in the end exactly if it had one before or got
one, and was not left for good (`known_build`).
-/

namespace ClassAtlas

namespace Network

variable {net after : Network} {stale id : NodeId} {path other : Path} {steps : List (NodeId × Path)}

/-! ## Paths that are left -/

/-- What placements do to paths: each takes a node from the path that it has by then to another. -/
def moves : Network → List (NodeId × Path) → List (Path × Path)
  | _, [] => []
  | net, (stale, path) :: rest => (net.pathOf stale, path) :: moves (net.placed stale path) rest

/-- A node leaves the path, and none comes to it then or later. -/
def Vacated (path : Path) : List (Path × Path) → Prop
  | [] => False
  | move :: rest =>
    (move.1 = path ∧ path ∉ (move :: rest).map Prod.snd) ∨ Vacated path rest

instance decidableVacated (path : Path) : (moves : List (Path × Path)) → Decidable (Vacated path moves)
  | [] => inferInstanceAs (Decidable False)
  | _ :: rest =>
    have := decidableVacated path rest
    inferInstanceAs (Decidable (_ ∨ Vacated path rest))

theorem Sound.known_iff (sound : net.Sound) :
    net.Known path ↔ ∃ id, net.Live id ∧ net.pathOf id = path := by
  constructor
  · rintro ⟨id, hid⟩
    exact ⟨id, sound.live_of_lookup hid, sound.pathOf_of_lookup hid⟩
  · rintro ⟨id, hlive, rfl⟩
    exact ⟨id, sound.lookup_pathOf hlive⟩

/-- A placement leaves the other nodes where they are. -/
theorem Sound.placed_of_ne (sound : net.Sound) (h : id ≠ stale) (path : Path) :
    ((net.placed stale path).Live id ↔ net.Live id) ∧
      (net.placed stale path).pathOf id = net.pathOf id := by
  cases habsorber : net.absorber? stale path with
  | none =>
      rw [placed_of_none habsorber]
      exact ⟨live_rekey, pathOf_rekey_of_ne h⟩
  | some target =>
      have htarget := sound.live_of_lookup (absorber?_eq_some.mp habsorber).1
      rw [placed_of_some habsorber, sound.live_absorb stale htarget]
      exact ⟨and_iff_right h, sound.pathOf_absorb_of_ne htarget h⟩

/-- The node that is placed has its path afterwards, unless another one that had it absorbs the node. -/
theorem Sound.placed_self (sound : net.Sound) (live : net.Live stale) (path : Path) :
    (net.placed stale path).Known path ∧
      ((net.placed stale path).Live stale → (net.placed stale path).pathOf stale = path) := by
  have hsound := sound.placed live path
  cases habsorber : net.absorber? stale path with
  | none =>
      rw [placed_of_none habsorber] at hsound ⊢
      have hpath : (net.rekey stale path).pathOf stale = path := pathOf_rekey_self live
      exact ⟨hsound.known_iff.mpr ⟨stale, live_rekey.mpr live, hpath⟩, fun _ => hpath⟩
  | some target =>
      obtain ⟨hfound, hapart⟩ := absorber?_eq_some.mp habsorber
      obtain ⟨hlive, hpath⟩ := sound.placed_of_ne hapart path
      refine ⟨hsound.known_iff.mpr ⟨target, hlive.mpr (sound.live_of_lookup hfound), ?_⟩, ?_⟩
      · rw [hpath, sound.pathOf_of_lookup hfound]
      · intro hstale
        rw [placed_of_some habsorber, sound.live_absorb stale (sound.live_of_lookup hfound)] at hstale
        exact absurd rfl hstale.1

/-- A placement puts a node to its path and takes it away from the path that the node had. -/
theorem Sound.known_placed (sound : net.Sound) (live : net.Live stale) :
    (net.placed stale path).Known other ↔
      other = path ∨ net.Known other ∧ net.pathOf stale ≠ other := by
  obtain ⟨hknown, hself⟩ := sound.placed_self live path
  constructor
  · rw [(sound.placed live path).known_iff, sound.known_iff]
    rintro ⟨id, hid, rfl⟩
    by_cases h : id = stale
    · subst h
      exact .inl (hself hid)
    · obtain ⟨hlive, hpath⟩ := sound.placed_of_ne h path
      rw [hpath]
      refine .inr ⟨⟨id, hlive.mp hid, rfl⟩, fun heq => ?_⟩
      exact h (sound.eq_of_pathOf_eq live (hlive.mp hid) heq).symm
  · rintro (rfl | ⟨hbefore, hne⟩)
    · exact hknown
    · obtain ⟨id, hid, rfl⟩ := sound.known_iff.mp hbefore
      have h : id ≠ stale := by
        rintro rfl
        exact hne rfl
      obtain ⟨hlive, hpath⟩ := sound.placed_of_ne h path
      exact (sound.placed live path).known_iff.mpr ⟨id, hlive.mpr hid, hpath⟩

/-- After some placements a path has a node exactly if it had one or got one, and was not left for
good. -/
theorem Placed.known_iff (run : Placed steps net after) (sound : net.Sound) :
    after.Known other ↔
      (net.Known other ∨ other ∈ (net.moves steps).map Prod.snd) ∧
        ¬ Vacated other (net.moves steps) := by
  induction steps generalizing net with
  | nil =>
      simp only [Placed] at run
      subst run
      simp [moves, Vacated]
  | cons step rest ih =>
      obtain ⟨stale, path⟩ := step
      rw [ih run.2 (sound.placed run.1 path), sound.known_placed run.1]
      simp only [moves, Vacated, List.map_cons, List.mem_cons]
      tauto

end Network

namespace Graph

open Network

/-! ## Moved nodes -/

/-- The node is at or under a provisional one that has a place elsewhere, so the folds move it. -/
def Moved (g : Graph) (id : NodeId) : Prop :=
  ∃ root path, (root, path) ∈ g.relocations ∧ g.isProvisional root = true ∧ g.net.Under root id

/-- The folds leave all but the moved nodes as they are. -/
theorem frame_build (files : List (List Item)) :
    Frame (secondWalk files).net (Graph.empty.build files).net (secondWalk files).Moved := by
  have hpass : (secondWalk files).pass = some .findRelations := (walked_secondWalk files).pass
  have hclosed := closed_eq (secondWalk files)
  have hframe := (foldl_relocate_spec (secondWalk files).relocations
    { (secondWalk files).closed with relocations := [] }
    (by rw [hclosed]; exact sound_secondWalk files) (secondWalk files).Moved
    (by
      rw [hclosed]
      rintro a b hab ⟨root, path, hmem, hprov, hunder⟩
      exact ⟨root, path, hmem, hprov, hunder.tail hab⟩)
    (by
      rw [hclosed]
      intro relocation hmem hprov
      exact ⟨relocation.1, relocation.2, hmem, hprov, .refl _ _⟩)).2.1
  rw [hclosed] at hframe
  rw [build_eq, endPass_eq, if_pos hpass]
  show Frame _ ((secondWalk files).relocated (secondWalk files).relocations).net _
  unfold relocated
  rw [hclosed]
  exact hframe

theorem sound_build (files : List (List Item)) : (Graph.empty.build files).net.Sound :=
  (consistent_of_reachable ((Reachable.empty.runPass .findNodes files).runPass .findRelations
    files)).sound

/-- A node that is not moved has the same path before and after. -/
theorem lookup_build_of_not_moved {files : List (List Item)} {id : NodeId}
    (still : ¬ (secondWalk files).Moved id) (path : Path) :
    (Graph.empty.build files).net.lookup path = some id ↔
      (secondWalk files).net.lookup path = some id := by
  have hframe := frame_build files
  have hpath := hframe.pathOf still
  have hlive := hframe.live_iff still
  constructor
  · intro h
    have hbefore := hlive.mp ((sound_build files).live_of_lookup h)
    rw [← (sound_build files).pathOf_of_lookup h, hpath]
    exact (sound_secondWalk files).lookup_pathOf hbefore
  · intro h
    have hafter := hlive.mpr ((sound_secondWalk files).live_of_lookup h)
    rw [← (sound_secondWalk files).pathOf_of_lookup h, ← hpath]
    exact (sound_build files).lookup_pathOf hafter

/-- What the folds at the end of the second pass do to paths. -/
def foldMoves (g : Graph) : List (Path × Path) :=
  g.net.moves g.foldSteps

/-- A path has a node in the finished graph exactly if either walk has given it or the folds have put
a node to it, and they do not vacate it. -/
theorem known_build (files : List (List Item)) (path : Path) :
    (Graph.empty.build files).net.Known path ↔
      ((path ∈ firstPaths files ∨ path ∈ secondPaths files) ∨
        path ∈ (secondWalk files).foldMoves.map Prod.snd) ∧
      ¬ Vacated path (secondWalk files).foldMoves := by
  obtain ⟨hsound, hrun⟩ := placed_built [] [] files
  rw [← known_secondWalk]
  exact hrun.known_iff hsound

-- A class `X::Y` in `M` is moved as soon as `M::X` is known, and no other node comes to its place.
example :
    let walk := secondWalk
      [[.moduleDecl (.relative ["M"]) [.classDecl (.relative ["X", "Y"]) none []],
        .moduleDecl (.relative ["M"]) [.moduleDecl (.relative ["X"]) []]]]
    walk.foldMoves = [(⟨["X", "Y"]⟩, ⟨["M", "X", "Y"]⟩)] ∧ Vacated ⟨["X", "Y"]⟩ walk.foldMoves := by
  decide +kernel

/-! ## When the second pass and the finished graph agree -/

/-- **Declared paths that are kept.** Every path that the second walk gives has a node in the finished
graph if and only if each of them whose node is moved is the path of a moved node again. That is so if
and only if the folds vacate none of them. -/
theorem declared_kept_iff (files : List (List Item)) :
    ((∀ path ∈ secondPaths files, (Graph.empty.build files).net.Known path) ↔
      ∀ path ∈ secondPaths files, ∀ id, (secondWalk files).net.lookup path = some id →
        (secondWalk files).Moved id →
        ∃ other, (secondWalk files).Moved other ∧
          (Graph.empty.build files).net.lookup path = some other) ∧
    ((∀ path ∈ secondPaths files, (Graph.empty.build files).net.Known path) ↔
      ∀ path ∈ secondPaths files, ¬ Vacated path (secondWalk files).foldMoves) := by
  refine ⟨⟨?_, ?_⟩, forall₂_congr fun path hpath => ?_⟩
  · intro hkept path hpath id hid hmoved
    obtain ⟨other, hother⟩ := hkept path hpath
    refine ⟨other, ?_, hother⟩
    by_contra hstill
    -- a node that is not moved had the path before, so it is the moved one
    have hbefore := (lookup_build_of_not_moved hstill path).mp hother
    rw [hid] at hbefore
    exact hstill (Option.some.inj hbefore ▸ hmoved)
  · intro hagain path hpath
    obtain ⟨id, hid⟩ := (known_secondWalk files path).mpr (.inr hpath)
    by_cases hmoved : (secondWalk files).Moved id
    · obtain ⟨other, _, hother⟩ := hagain path hpath id hid hmoved
      exact ⟨other, hother⟩
    · exact ⟨id, (lookup_build_of_not_moved hmoved path).mpr hid⟩
  · rw [known_build]
    exact and_iff_right (.inl (.inr hpath))

/-- A class `X::Y` is declared in `M`, and also at the top level, where no `X` is known. Once `M::X` is
known, the first declaration takes the node of both along. -/
theorem declared_lost :
    let files : List (List Item) :=
      [[.moduleDecl (.relative ["M"]) [.classDecl (.relative ["X", "Y"]) none []],
        .classDecl (.relative ["X", "Y"]) none [],
        .moduleDecl (.relative ["M"]) [.moduleDecl (.relative ["X"]) []]]]
    ⟨["X", "Y"]⟩ ∈ secondPaths files ∧ ¬ (Graph.empty.build files).net.Known ⟨["X", "Y"]⟩ := by
  decide +kernel

/-- **Nodes that were declared.** Every node of the finished graph has a path that the second walk
gives if and only if the nodes of all paths that only the first walk gives are moved, and no moved
node ends at a path that the second walk does not give. That is so if and only if the folds vacate all
other paths that the first walk has given or that they have put a node to. -/
theorem remaining_declared_iff (files : List (List Item)) :
    ((∀ path, (Graph.empty.build files).net.Known path → path ∈ secondPaths files) ↔
      (∀ path ∈ firstPaths files, path ∉ secondPaths files →
        ∀ id, (secondWalk files).net.lookup path = some id → (secondWalk files).Moved id) ∧
      ∀ path id, (secondWalk files).Moved id →
        (Graph.empty.build files).net.lookup path = some id → path ∈ secondPaths files) ∧
    ((∀ path, (Graph.empty.build files).net.Known path → path ∈ secondPaths files) ↔
      ∀ path, path ∈ firstPaths files ∨ path ∈ (secondWalk files).foldMoves.map Prod.snd →
        path ∉ secondPaths files → Vacated path (secondWalk files).foldMoves) := by
  refine ⟨⟨?_, ?_⟩, forall_congr' fun path => ?_⟩
  · intro hdeclared
    refine ⟨fun path _ hother id hid => ?_, fun path id _ hid => hdeclared path ⟨id, hid⟩⟩
    by_contra hstill
    exact hother (hdeclared path ⟨id, (lookup_build_of_not_moved hstill path).mpr hid⟩)
  · rintro ⟨hfirst, hmoved⟩ path ⟨id, hid⟩
    by_cases hmove : (secondWalk files).Moved id
    · exact hmoved path id hmove hid
    · have hbefore := (lookup_build_of_not_moved hmove path).mp hid
      by_contra hother
      rcases (known_secondWalk files path).mp ⟨id, hbefore⟩ with h | h
      · exact hmove (hfirst path h hother id hbefore)
      · exact hother h
  · rw [known_build]
    tauto

/-- A class `X::Y` in `M` holds a module `X` and a class `X::Y` of its own. The first walk takes the
inner class, which is `X::Y::X::Y`, for the place where the outer one belongs, and so the outer one
ends there and not in `M::X`. -/
theorem remaining_undeclared :
    let files : List (List Item) :=
      [[.moduleDecl (.relative ["M"])
          [.classDecl (.relative ["X", "Y"]) none
            [.moduleDecl (.relative ["X"]) [], .classDecl (.relative ["X", "Y"]) none []]],
        .moduleDecl (.relative ["M"]) [.moduleDecl (.relative ["X"]) []]]]
    (Graph.empty.build files).net.Known ⟨["X", "Y", "X", "Y"]⟩ ∧
      ⟨["X", "Y", "X", "Y"]⟩ ∉ secondPaths files := by
  decide +kernel

end Graph

end ClassAtlas
