import ClassAtlas.Proofs.Growth
import ClassAtlas.Proofs.OutwardWalk
import ClassAtlas.Proofs.PathLaw

/-!
# The nearest scope

A relative name is looked up on the way outwards from a node. The way follows containment, and which
nodes have a container is decided bit by bit in the course of the walks: some nodes of a path `A::B::C`
have none although `A::B` is there. Still the way has a description by paths alone. Containment follows
paths in every state before the second pass ends, so each path on the way is the one before it without
its last segment, and lengths go down to that of the empty path, the top level.

So the first hit of the search is the longest path on the way in which the first name is known
(`find?_eq_some_iff`), and the other names have to be known from there on. A hit is final: if another name
is not found, the search does not go on further out.
-/

namespace ClassAtlas

/-! ## The longest path with a name -/

/-- `scope` is the longest of some paths in which the name is known. -/
def LongestWith (known : Path → Prop) (paths : List Path) (name : String) (scope : Path) : Prop :=
  scope ∈ paths ∧ known (scope.child name) ∧
    ∀ other ∈ paths, known (other.child name) → other.segments.length ≤ scope.segments.length

instance (known : Path → Prop) [DecidablePred known] (paths : List Path) (name : String)
    (scope : Path) : Decidable (LongestWith known paths name scope) :=
  inferInstanceAs (Decidable (scope ∈ paths ∧ known (scope.child name) ∧
    ∀ other ∈ paths, known (other.child name) → other.segments.length ≤ scope.segments.length))

/-- Every path is longer than the paths after it. -/
def Shortening (paths : List Path) : Prop :=
  paths.Pairwise (fun inner outer => outer.segments.length < inner.segments.length)

/-- Among paths that get shorter, the first one with the name is the longest. -/
theorem Shortening.find?_eq_some_iff {known : Path → Prop} [DecidablePred known] {paths : List Path}
    {name : String} {scope : Path} (shortening : Shortening paths) :
    paths.find? (fun path => decide (known (path.child name))) = some scope ↔
      LongestWith known paths name scope := by
  induction paths with
  | nil => simp [LongestWith]
  | cons path rest ih =>
      obtain ⟨hshorter, hrest⟩ := List.pairwise_cons.mp shortening
      rw [List.find?_cons]
      by_cases hknown : known (path.child name)
      · simp only [hknown, decide_true]
        constructor
        · intro h
          obtain rfl := Option.some.inj h
          refine ⟨List.mem_cons_self, hknown, fun other hother _ => ?_⟩
          rcases List.mem_cons.mp hother with rfl | hafter
          · exact Nat.le_refl _
          · exact Nat.le_of_lt (hshorter other hafter)
        · rintro ⟨hmem, _, hlongest⟩
          rcases List.mem_cons.mp hmem with rfl | hafter
          · rfl
          · have hle := hlongest path List.mem_cons_self hknown
            have hlt := hshorter scope hafter
            omega
      · simp only [hknown, decide_false]
        rw [ih hrest]
        constructor
        · rintro ⟨hmem, hscope, hlongest⟩
          refine ⟨List.mem_cons_of_mem _ hmem, hscope, fun other hother hname => ?_⟩
          rcases List.mem_cons.mp hother with rfl | hafter
          · exact absurd hname hknown
          · exact hlongest other hafter hname
        · rintro ⟨hmem, hscope, hlongest⟩
          rcases List.mem_cons.mp hmem with rfl | hafter
          · exact absurd hscope hknown
          · exact ⟨hafter, hscope, fun other hother => hlongest other (List.mem_cons_of_mem _ hother)⟩

namespace Network

variable {net : Network} {id : NodeId} {ids : List NodeId} {origin : Option NodeId}

/-! ## The way outwards by paths -/

/-- The nodes on the way outwards from an origin; from the top level there is none. -/
def OutwardFrom (net : Network) : Option NodeId → List NodeId → Prop
  | none, ids => ids = []
  | some id, ids => net.Outward id ids

/-- The paths of nodes, and after them the top level. -/
def upToTop (net : Network) (ids : List NodeId) : List Path :=
  ids.map net.pathOf ++ [⟨[]⟩]

/-- Each path on the way outwards is the one before it without its last segment. -/
theorem Outward.dropsSegments (outward : net.Outward id ids) (follows : net.FollowsPaths) :
    (ids.map net.pathOf).IsChain (fun inner outer => outer.segments = inner.segments.dropLast) := by
  induction outward with
  | outermost _ => exact .singleton _
  | @inside id outer ids hin hrest ih =>
      have hdrops : (net.pathOf outer).segments = (net.pathOf id).segments.dropLast := by
        rw [follows id outer hin, Path.segments_child, List.dropLast_concat]
      cases hrest with
      | outermost _ => exact .cons_cons hdrops ih
      | inside _ _ => exact .cons_cons hdrops ih

theorem Outward.length_le (outward : net.Outward id ids) (follows : net.FollowsPaths) :
    ∀ outer ∈ ids, (net.pathOf outer).segments.length ≤ (net.pathOf id).segments.length := by
  induction outward with
  | outermost _ =>
      intro outer houter
      exact Nat.le_of_eq (by rw [List.mem_singleton.mp houter])
  | inside hin _ ih =>
      intro outer houter
      have hlength := (follows _).length_eq hin
      rcases List.mem_cons.mp houter with rfl | hrest
      · exact Nat.le_refl _
      · have hle := ih outer hrest
        omega

theorem Outward.shortening (outward : net.Outward id ids) (follows : net.FollowsPaths) :
    Shortening (ids.map net.pathOf) := by
  induction outward with
  | outermost _ => exact List.pairwise_singleton _ _
  | inside hin hrest ih =>
      refine List.pairwise_cons.mpr ⟨fun path hpath => ?_, ih⟩
      obtain ⟨outer, houter, rfl⟩ := List.mem_map.mp hpath
      have hlength := (follows _).length_eq hin
      have hle := hrest.length_le follows outer houter
      omega

theorem OutwardFrom.unique (sound : net.Sound) {others : List NodeId}
    (first : net.OutwardFrom origin ids) (second : net.OutwardFrom origin others) :
    others = ids := by
  cases origin with
  | none => exact Eq.trans second (Eq.symm first)
  | some id => exact (Outward.unique sound first second).symm

theorem OutwardFrom.dropsSegments (outward : net.OutwardFrom origin ids)
    (follows : net.FollowsPaths) :
    (ids.map net.pathOf).IsChain (fun inner outer => outer.segments = inner.segments.dropLast) := by
  cases origin with
  | none =>
      obtain rfl : ids = [] := outward
      exact .nil
  | some id => exact Outward.dropsSegments outward follows

theorem exists_outwardFrom (there : ∀ id, origin = some id → net.Live id) (sound : net.Sound)
    (forest : net.Acyclic) : ∃ ids, net.OutwardFrom origin ids := by
  cases origin with
  | none => exact ⟨[], rfl⟩
  | some id => exact exists_outward sound forest (there id rfl)

section Origin

variable (there : ∀ id, origin = some id → net.Live id) (outward : net.OutwardFrom origin ids)
  (sound : net.Sound)

include there outward sound

theorem OutwardFrom.live : ∀ outer ∈ ids, net.Live outer := by
  cases origin with
  | none =>
      obtain rfl : ids = [] := outward
      simp
  | some id => exact Outward.live outward sound (there id rfl)

theorem OutwardFrom.scopesFrom_eq (forest : net.Acyclic) : net.scopesFrom origin = ids := by
  cases origin with
  | none => exact Eq.symm outward
  | some id => exact Outward.scopesFrom_eq outward sound forest (there id rfl)

/-- The top level has the shortest path of all, since no node has an empty one. -/
theorem OutwardFrom.shortening (follows : net.FollowsPaths) (unrooted : ¬ net.Known ⟨[]⟩) :
    Shortening (net.upToTop ids) := by
  have hlive := OutwardFrom.live there outward sound
  refine List.pairwise_append.mpr ⟨?_, List.pairwise_singleton _ _, fun path hpath top htop => ?_⟩
  · cases origin with
    | none =>
        obtain rfl : ids = [] := outward
        exact .nil
    | some id => exact Outward.shortening outward follows
  · obtain ⟨outer, houter, rfl⟩ := List.mem_map.mp hpath
    rw [List.mem_singleton.mp htop]
    refine List.length_pos_iff.mpr fun hempty => unrooted ⟨outer, ?_⟩
    have hfound := sound.lookup_pathOf (hlive outer houter)
    rwa [show net.pathOf outer = ⟨[]⟩ from congrArg Path.mk hempty] at hfound

/-- The search for a name ends in the first path on the way that has it, and else at the top level. -/
theorem OutwardFrom.hitPath_eq (forest : net.Acyclic) (name : String) :
    net.hitPath name origin =
      (((net.upToTop ids).find? fun path => decide (net.Known (path.child name))).getD ⟨[]⟩).child
        name := by
  unfold hitPath hitScope? upToTop
  rw [OutwardFrom.scopesFrom_eq there outward sound forest, List.find?_append, List.find?_map]
  show _ = ((Option.map net.pathOf (ids.find? fun scope =>
    decide (net.Known ((net.pathOf scope).child name)))).or _ |>.getD ⟨[]⟩).child name
  cases ids.find? fun scope => decide (net.Known ((net.pathOf scope).child name)) with
  | some scope => rfl
  | none =>
      show (⟨[]⟩ : Path).child name = _
      rw [Option.map_none, Option.none_or, List.find?_singleton]
      split <;> rfl

/-- A relative name finds the longest path on the way in which its first segment is known, if all paths
from there on are known. -/
theorem OutwardFrom.resolve_relative_iff (follows : net.FollowsPaths) (unrooted : ¬ net.Known ⟨[]⟩)
    (first : String) (rest : List String) (path : Path) :
    (net.resolve (.relative (first :: rest)) origin).map net.pathOf = some path ↔
      ∃ scope, LongestWith net.Known (net.upToTop ids) first scope ∧
        (∀ count ≤ rest.length, net.Known (scope.join (first :: rest.take count))) ∧
        path = scope.join (first :: rest) := by
  have hshortening := OutwardFrom.shortening there outward sound follows unrooted
  have hhit := OutwardFrom.hitPath_eq there outward sound follows.acyclic first
  constructor
  · intro h
    obtain ⟨id, hid, rfl⟩ := Option.map_eq_some_iff.mp h
    obtain ⟨hknown, hlast⟩ := sound.resolve_relative_iff.mp hid
    cases hfind : (net.upToTop ids).find? fun path => decide (net.Known (path.child first)) with
    | none =>
        -- then the name is not known at the top level either
        have htop := List.find?_eq_none.mp hfind ⟨[]⟩ (List.mem_append_right _ List.mem_cons_self)
        have hbase := hknown 0 (Nat.zero_le _)
        rw [hhit, hfind, List.take_zero, Path.join_nil] at hbase
        exact absurd (decide_eq_true hbase) htop
    | some scope =>
        rw [hhit, hfind, Option.getD_some] at hknown hlast
        refine ⟨scope, hshortening.find?_eq_some_iff.mp hfind, fun count hcount => ?_, ?_⟩
        · rw [Path.join_cons]
          exact hknown count hcount
        · rw [Path.join_cons]
          exact sound.pathOf_of_lookup hlast
  · rintro ⟨scope, hlongest, hknown, rfl⟩
    have hscope : net.hitPath first origin = scope.child first := by
      rw [hhit, hshortening.find?_eq_some_iff.mpr hlongest, Option.getD_some]
    obtain ⟨id, hid⟩ := hknown rest.length (Nat.le_refl _)
    rw [List.take_length] at hid
    refine Option.map_eq_some_iff.mpr ⟨id, sound.resolve_relative_iff.mpr ⟨fun count hcount => ?_, ?_⟩,
      sound.pathOf_of_lookup hid⟩
    · rw [hscope, ← Path.join_cons]
      exact hknown count hcount
    · rw [hscope, ← Path.join_cons]
      exact hid

end Origin

end Network

namespace Graph

open Network

variable {g : Graph} {ignored : List Matcher} {styles : List (Matcher × Style)}
  {files : List (List Item)} {origin : Option NodeId}

/-- Resolving from the path of a node is resolving from that node. -/
theorem resolve_pathOf (sound : g.net.Sound) (there : ∀ id, origin = some id → g.net.Live id)
    (name : Reference) :
    g.resolve name (origin.map g.net.pathOf) = (g.net.resolve name origin).map g.net.pathOf := by
  unfold resolve
  cases origin with
  | none => rfl
  | some id =>
      rw [Option.map_some]
      simp only [sound.lookup_pathOf (there id rfl)]

/-- The path that a name resolves to ends in the segments of the name. -/
theorem suffix_of_resolve (sound : g.net.Sound) {name : Reference} {id : NodeId}
    (h : g.net.resolve name origin = some id) : name.segments <:+ (g.net.pathOf id).segments := by
  match name, h with
  | .relative segments, h => exact suffix_of_resolveSegments sound h
  | .absolute segments, h =>
      rw [sound.pathOf_of_lookup h]
      exact List.suffix_rfl

/-- **Resolution is the search in the nearest scope.** In every state before the second pass ends, the
way outwards from a node (or from the top level) is one finite list of nodes, each with the path before
it without its last segment, and with the top level after them all paths get shorter. A relative name
resolves to the longest of these paths in which its first segment is known, followed by its segments, if
every path on the way down is known; otherwise it does not resolve, and no shorter path is tried. An
absolute name resolves to its own segments. So what a name resolves to ends in its segments. -/
theorem resolve_nearest_of_underway (underway : Underway ignored styles files g)
    (there : ∀ id, origin = some id → g.net.Live id) :
    ∃ ids, g.net.OutwardFrom origin ids ∧
      (∀ others, g.net.OutwardFrom origin others → others = ids) ∧
      (ids.map g.net.pathOf).IsChain (fun inner outer => outer.segments = inner.segments.dropLast) ∧
      Shortening (g.net.upToTop ids) ∧
      (∀ first rest path,
        g.resolve (.relative (first :: rest)) (origin.map g.net.pathOf) = some path ↔
          ∃ scope, LongestWith g.net.Known (g.net.upToTop ids) first scope ∧
            (∀ count ≤ rest.length, g.net.Known (scope.join (first :: rest.take count))) ∧
            path = scope.join (first :: rest)) ∧
      (∀ first rest,
        g.resolve (.relative (first :: rest)) (origin.map g.net.pathOf) = none ↔
          ∀ scope, LongestWith g.net.Known (g.net.upToTop ids) first scope →
            ∃ count ≤ rest.length, ¬ g.net.Known (scope.join (first :: rest.take count))) ∧
      (∀ segments path,
        g.resolve (.absolute segments) (origin.map g.net.pathOf) = some path ↔
          path = ⟨segments⟩ ∧ g.net.Known ⟨segments⟩) ∧
      ∀ name path, g.resolve name (origin.map g.net.pathOf) = some path →
        name.segments <:+ path.segments := by
  have hsound := walkLaw_sound.underway underway
  have hfollows := (walkLaw_queued.underway underway).follows
  have hunrooted := walkLaw_unrooted.underway underway
  obtain ⟨ids, houtward⟩ := exists_outwardFrom there hsound hfollows.acyclic
  have hrelative := OutwardFrom.resolve_relative_iff there houtward hsound hfollows hunrooted
  refine ⟨ids, houtward, fun others h => houtward.unique hsound h, houtward.dropsSegments hfollows,
    OutwardFrom.shortening there houtward hsound hfollows hunrooted, ?_, ?_, ?_, ?_⟩
  · intro first rest path
    rw [resolve_pathOf hsound there]
    exact hrelative first rest path
  · intro first rest
    rw [resolve_pathOf hsound there, Option.eq_none_iff_forall_ne_some]
    constructor
    · intro hnone scope hlongest
      by_contra hall
      refine hnone _ ((hrelative first rest _).mpr ⟨scope, hlongest, fun count hcount => ?_, rfl⟩)
      by_contra hunknown
      exact hall ⟨count, hcount, hunknown⟩
    · intro hcut path hfound
      obtain ⟨scope, hlongest, hknown, _⟩ := (hrelative first rest path).mp hfound
      obtain ⟨count, hcount, hunknown⟩ := hcut scope hlongest
      exact hunknown (hknown count hcount)
  · intro segments path
    rw [resolve_pathOf hsound there, resolve_absolute, Option.map_eq_some_iff]
    constructor
    · rintro ⟨id, hid, rfl⟩
      exact ⟨hsound.pathOf_of_lookup hid, ⟨id, hid⟩⟩
    · rintro ⟨rfl, id, hid⟩
      exact ⟨id, hid, hsound.pathOf_of_lookup hid⟩
  · intro name path h
    rw [resolve_pathOf hsound there] at h
    obtain ⟨id, hid, rfl⟩ := Option.map_eq_some_iff.mp h
    exact suffix_of_resolve hsound hid

/-- `X` in `A` hides the other `X`, in which there is a class `Y`. -/
def hiddenTop : List (List Item) :=
  [[.moduleDecl (.relative ["A"])
      [.moduleDecl (.relative ["B"]) [.moduleDecl (.relative ["C"]) []],
        .moduleDecl (.relative ["X"]) []]],
    [.moduleDecl (.relative ["X"]) [.classDecl (.relative ["Y"]) none []]]]

theorem resolve_nearest_of_hiddenTop :
    Underway [] [] hiddenTop (relationsBegun [] [] hiddenTop) ∧
      (relationsBegun [] [] hiddenTop).pass = some .findRelations ∧
      (relationsBegun [] [] hiddenTop).net.Known ⟨["X", "Y"]⟩ ∧
      (relationsBegun [] [] hiddenTop).resolve (.relative ["X"]) (some ⟨["A", "B", "C"]⟩) =
        some ⟨["A", "X"]⟩ ∧
      (relationsBegun [] [] hiddenTop).resolve (.relative ["X", "Y"]) (some ⟨["A", "B", "C"]⟩) =
        none := by
  have hunderway : Underway [] [] hiddenTop (relationsBegun [] [] hiddenTop) := .relations .here
  have hthere : ∀ id, some 2 = some id → (relationsBegun [] [] hiddenTop).net.Live id := by
    intro id h
    obtain rfl := Option.some.inj h
    show 2 ∈ _
    decide +kernel
  obtain ⟨ids, _, hunique, _, hshortening, hsome, hnone, _⟩ :=
    resolve_nearest_of_underway hunderway hthere
  have hpath : (relationsBegun [] [] hiddenTop).net.pathOf 2 = ⟨["A", "B", "C"]⟩ := by decide +kernel
  simp only [Option.map_some, hpath] at hsome hnone
  have hinner : (relationsBegun [] [] hiddenTop).net.Relates 1 2 .containment :=
    hasEdge_iff.mp (by decide +kernel)
  have houter : (relationsBegun [] [] hiddenTop).net.Relates 0 1 .containment :=
    hasEdge_iff.mp (by decide +kernel)
  obtain rfl : [2, 1, 0] = ids := by
    refine hunique [2, 1, 0] (.inside hinner (.inside houter (.outermost ?_)))
    exact container?_eq_none_iff.mp (by decide +kernel)
  have hnearest : LongestWith (relationsBegun [] [] hiddenTop).net.Known
      ((relationsBegun [] [] hiddenTop).net.upToTop [2, 1, 0]) "X" ⟨["A"]⟩ := by decide +kernel
  refine ⟨hunderway, rfl, by decide +kernel, (hsome "X" [] _).mpr ⟨⟨["A"]⟩, hnearest, ?_, rfl⟩,
    (hnone "X" ["Y"]).mpr fun scope hscope => ⟨1, Nat.le_refl 1, ?_⟩⟩
  · decide +kernel
  · obtain rfl : ⟨["A"]⟩ = scope := Option.some.inj
      ((hshortening.find?_eq_some_iff.mpr hnearest).symm.trans
        (hshortening.find?_eq_some_iff.mpr hscope))
    decide +kernel

end Graph

end ClassAtlas
