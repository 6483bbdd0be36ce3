import ClassAtlas.Proofs.Growth
import ClassAtlas.Proofs.PlainBuild

/-!
# The targets of mixins

The second pass looks a mixin up at the moment it meets the statement, in the network as it is then. The
network still grows after that: declarations that come later may be found in their place only now, and
then they get a container or a node. So a mixin that can be resolved in the finished graph may have been
out of reach when it was met, and it is met only once.

The statements met by a walk, each with the graph at its time, are a list (`meetings`), and the mixins of
the finished graph are exactly those that these statements recorded (`mixed_built`). A statement records
what its target names in the end exactly if that could be found at its time (`Network.Foreseen`). All
mixins that can be resolved in the end are recorded if the second pass adds no node and no container, but
not in general: a class may include a module that only a container to come makes visible.
-/

namespace ClassAtlas

namespace Graph

open Network

/-! ## The mixin statements that a walk meets -/

/-- One target of a mixin statement, and the graph at the time when the walk meets it. -/
structure Meeting where
  now : Graph
  mixin : Mixin
  target : Reference

/-- The targets of one statement, in order. -/
def metByTargets (mixin : Mixin) : List Reference → Graph → List Meeting
  | [], _ => []
  | target :: rest, g => ⟨g, mixin, target⟩ :: metByTargets mixin rest (g.mix mixin target).2

mutual

/-- The targets of mixins in the body of a declaration, or in one statement. -/
def metByItem (relating : Bool) : Item → Graph → List Meeting
  | .classDecl name superclass body, g =>
    match g.enter .classNode name with
    | none => []
    | some (_, inner) =>
      metByItems relating body (if relating then inner.inheritFrom superclass else inner)
  | .moduleDecl name body, g =>
    match g.enter .moduleNode name with
    | none => []
    | some (_, inner) => metByItems relating body inner
  | .mixing mixin targets, g => if relating then metByTargets mixin targets g else []

/-- The targets of mixins that are met in the course of a walk. -/
def metByItems (relating : Bool) : List Item → Graph → List Meeting
  | [], _ => []
  | item :: rest, g => metByItem relating item g ++ metByItems relating rest (replayItem relating item g)

end

/-- The targets of mixins that are met in all files in the pass in progress. -/
def meetings : Graph → List (List Item) → List Meeting
  | _, [] => []
  | g, file :: rest =>
    metByItems (g.pass == some .findRelations) file g ++ meetings (g.replay file) rest

namespace Meeting

/-- The statement adds the edge. -/
def Records (met : Meeting) (owner target : NodeId) : Prop :=
  Mixes met.now met.target owner target ∧ owner ≠ target

/-- The target is written in the body of `owner` and names another node, a module, in this graph. -/
structure Names (met : Meeting) (final : Graph) (owner target : NodeId) : Prop where
  top : met.now.top? = some owner
  resolved : final.net.resolve met.target (some owner) = some target
  kind : final.net.kindOf? target = some .moduleNode
  other : target ≠ owner

end Meeting

/-- Every mixin that names another module in the graph is in the graph. -/
def RecordsAll (final : Graph) (mets : List Meeting) : Prop :=
  ∀ met ∈ mets, ∀ owner target, met.Names final owner target →
    final.net.Relates owner target met.mixin.relation

/-! ## What a walk records -/

/-- A walk from `g` to `h` that has met these targets: each at some time in between, and the mixins in
`h` are those from before and those recorded. -/
structure Met (g h : Graph) (mets : List Meeting) : Prop where
  steps : Steps g h
  times : ∀ met ∈ mets, Steps g met.now ∧ Steps met.now h
  relates : ∀ (mixin : Mixin) a b, h.net.Relates a b mixin.relation ↔
    g.net.Relates a b mixin.relation ∨ ∃ met ∈ mets, met.mixin = mixin ∧ met.Records a b

variable {g h k : Graph} {first second : List Meeting} {relating : Bool}

namespace Met

/-- Operations that add no mixin. -/
theorem quiet (steps : Steps g h)
    (same : ∀ (mixin : Mixin) a b, h.net.Relates a b mixin.relation ↔
      g.net.Relates a b mixin.relation) : Met g h [] where
  steps := steps
  times := by simp
  relates := by
    intro mixin a b
    rw [same]
    simp

theorem refl (g : Graph) : Met g g [] :=
  .quiet (.refl g) fun _ _ _ => Iff.rfl

theorem trans (before : Met g h first) (after : Met h k second) : Met g k (first ++ second) where
  steps := before.steps.trans after.steps
  times := by
    intro met hmet
    rcases List.mem_append.mp hmet with hfirst | hsecond
    · obtain ⟨hstart, hend⟩ := before.times met hfirst
      exact ⟨hstart, hend.trans after.steps⟩
    · obtain ⟨hstart, hend⟩ := after.times met hsecond
      exact ⟨before.steps.trans hstart, hend⟩
  relates := by
    intro mixin a b
    rw [after.relates, before.relates, or_assoc]
    simp only [List.mem_append, or_and_right, exists_or]

theorem enter {inner : Graph} {kind : Kind} {name : Reference} {path : Path}
    (hopen : g.enter kind name = some (path, inner)) : Met g inner [] := by
  obtain ⟨outer, id, _, entered⟩ := entered_of_enter hopen
  refine .quiet (.single (.enter hopen)) fun mixin a b => ?_
  rw [entered.relates_iff]
  exact ⟨fun h => h.resolve_right fun h => mixin.relation_ne.2 h.2.2.1, .inl⟩

theorem inheritFrom (g : Graph) (superclass : Option Reference) :
    Met g (g.inheritFrom superclass) [] := by
  refine .quiet (steps_inheritFrom g superclass) fun mixin a b => ?_
  cases superclass with
  | none => exact Iff.rfl
  | some superclass =>
      show (g.inherit superclass).2.net.Relates a b mixin.relation ↔ _
      rw [relates_inherit]
      exact ⟨fun h => h.resolve_right fun h => mixin.relation_ne.1 h.1, .inl⟩

theorem mix (g : Graph) (mixin : Mixin) (target : Reference) :
    Met g (g.mix mixin target).2 [⟨g, mixin, target⟩] where
  steps := .single (.mix g mixin target)
  times := by
    intro met hmet
    rw [List.mem_singleton.mp hmet]
    exact ⟨.refl g, .single (.mix g mixin target)⟩
  relates := by
    intro other a b
    rw [relates_mix]
    refine or_congr_right ⟨fun h => ?_, fun h => ?_⟩
    · obtain ⟨hrelation, hrecords⟩ := h
      exact ⟨_, List.mem_cons_self, (Mixin.relation_inj hrelation).symm, hrecords⟩
    · obtain ⟨met, hmet, hmixin, hrecords⟩ := h
      rw [List.mem_singleton.mp hmet] at hmixin hrecords
      rw [← hmixin]
      exact ⟨rfl, hrecords⟩

theorem mixAll (g : Graph) (mixin : Mixin) (targets : List Reference) :
    Met g (g.mixAll mixin targets) (metByTargets mixin targets g) := by
  induction targets generalizing g with
  | nil => exact .refl g
  | cons target rest ih => exact (Met.mix g mixin target).trans (ih _)

/-- A declaration around a body that is walked over. -/
theorem declare {inner : Graph} {kind : Kind} {name : Reference} {path : Path} {body : Graph → Graph}
    {mets : List Meeting} (hopen : g.enter kind name = some (path, inner))
    (inside : Met inner (body inner) mets) : Met g (g.declare kind name body).2 mets := by
  have heq : (g.declare kind name body).2 = (body inner).leave := by
    unfold Graph.declare
    rw [hopen]
  have hleave : Met (body inner) (body inner).leave [] :=
    .quiet (.single (.leave _)) fun _ _ _ => Iff.rfl
  have hwalk := ((Met.enter hopen).trans inside).trans hleave
  rw [List.nil_append, List.append_nil] at hwalk
  rw [heq]
  exact hwalk

theorem declare_nothing {kind : Kind} {name : Reference} {body : Graph → Graph}
    (hopen : g.enter kind name = none) : Met g (g.declare kind name body).2 [] := by
  have heq : (g.declare kind name body).2 = g := by
    unfold Graph.declare
    rw [hopen]
  rw [heq]
  exact .refl g

end Met

theorem met_replayItems (relating : Bool) (items : List Item) (g : Graph) :
    Met g (replayItems relating items g) (metByItems relating items g) := by
  suffices hall : (∀ item g, Met g (replayItem relating item g) (metByItem relating item g)) ∧
      ∀ items g, Met g (replayItems relating items g) (metByItems relating items g) from
    hall.2 items g
  apply Item.induct
  case classDecl =>
    intro name superclass body ih g
    unfold replayItem metByItem
    cases hopen : g.enter .classNode name with
    | none => exact .declare_nothing hopen
    | some entered =>
        refine .declare hopen ?_
        -- recording a superclass meets no mixin
        cases relating with
        | false => exact ih entered.2
        | true => exact (Met.inheritFrom entered.2 superclass).trans (ih _)
  case moduleDecl =>
    intro name body ih g
    unfold replayItem metByItem
    cases hopen : g.enter .moduleNode name with
    | none => exact .declare_nothing hopen
    | some entered => exact .declare hopen (ih entered.2)
  case mixing =>
    intro mixin targets g
    unfold replayItem metByItem
    cases relating with
    | false => exact .refl g
    | true => exact .mixAll g mixin targets
  case nil => exact fun g => .refl g
  case cons =>
    intro item rest ihItem ihRest g
    unfold replayItems metByItems
    exact (ihItem g).trans (ihRest _)

theorem met_foldl_replay (files : List (List Item)) (g : Graph) :
    Met g (files.foldl replay g) (meetings g files) := by
  induction files generalizing g with
  | nil => exact .refl g
  | cons file rest ih => exact (met_replayItems _ file g).trans (ih (g.replay file))

/-! ## The first pass records nothing -/

theorem metByItems_false (items : List Item) (g : Graph) : metByItems false items g = [] := by
  suffices hall : (∀ item g, metByItem false item g = []) ∧
      ∀ items g, metByItems false items g = [] from hall.2 items g
  apply Item.induct
  case classDecl =>
    intro name superclass body ih g
    unfold metByItem
    cases g.enter .classNode name with
    | none => rfl
    | some entered => exact ih entered.2
  case moduleDecl =>
    intro name body ih g
    unfold metByItem
    cases g.enter .moduleNode name with
    | none => rfl
    | some entered => exact ih entered.2
  case mixing =>
    intro mixin targets g
    unfold metByItem
    rfl
  case nil =>
    intro g
    unfold metByItems
    rfl
  case cons =>
    intro item rest ihItem ihRest g
    unfold metByItems
    rw [ihItem, ihRest, List.append_nil]

theorem meetings_findNodes (files : List (List Item)) (g : Graph) (pass : g.pass = some .findNodes) :
    meetings g files = [] := by
  induction files generalizing g with
  | nil => rfl
  | cons file rest ih =>
      have hrelating : (g.pass == some .findRelations) = false := by
        rw [pass]
        rfl
      have hpass : (g.replay file).pass = some .findNodes :=
        ((steps_replay _).2 file g).pass_eq.trans pass
      unfold meetings
      rw [hrelating, metByItems_false, ih _ hpass, List.append_nil]

variable {ignored : List Matcher} {styles : List (Matcher × Style)} {files : List (List Item)}

theorem unmixed_relationsBegun (mixin : Mixin) (a b : NodeId) :
    ¬ (relationsBegun ignored styles files).net.Relates a b mixin.relation := by
  have hwalk := met_foldl_replay files (nodesBegun ignored styles)
  rw [meetings_findNodes files _ rfl] at hwalk
  obtain ⟨journal, heq⟩ := runPass_findNodes_eq (ruled ignored styles) files
  intro h
  have hnodes : (files.foldl replay (nodesBegun ignored styles)).net.Relates a b mixin.relation := by
    have hnet : (relationsBegun ignored styles files).net =
        (files.foldl replay (nodesBegun ignored styles)).net := by
      show ((ruled ignored styles).runPass .findNodes files).net = _
      rw [heq]
      rfl
    rw [← hnet]
    exact h
  rcases (hwalk.relates mixin a b).mp hnodes with hstart | hmet
  · cases hstart
  · obtain ⟨met, hmem, _⟩ := hmet
    cases hmem

/-! ## Builds in which nothing is folded -/

/-- Nothing is folded at the end if the second pass queues no relocation, and all that the first pass
has queued are settled. -/
theorem still_of_none_queued (first : (relationsBegun ignored styles files).Still)
    (second : (unfolded ignored styles files).relocations =
      (relationsBegun ignored styles files).relocations) :
    (unfolded ignored styles files).Still := by
  intro relocation hmem
  rw [second] at hmem
  rw [Bool.eq_false_iff]
  intro hprov
  have hlater : (relationsBegun ignored styles files).pass ≠ some .findNodes := by
    show some Pass.findRelations ≠ some .findNodes
    decide
  have hsteps := steps_foldl_replay files (relationsBegun ignored styles files)
  have hbefore := hsteps.isProvisional hlater hprov
  rw [first relocation hmem] at hbefore
  cases hbefore

-- The first pass may leave a relocation behind. Here `P::Q` is declared once more in `X::Y`, where
-- `X::Y::P` is known; in the second pass this `X::Y` is `M::X::Y`, and nothing is queued.
example :
    let files : List (List Item) :=
      [[.classDecl (.relative ["P", "Q"]) none [],
        .moduleDecl (.absolute ["X", "Y", "P"]) [],
        .moduleDecl (.relative ["M"])
          [.classDecl (.relative ["X", "Y"]) none [.classDecl (.relative ["P", "Q"]) none []]],
        .classDecl (.absolute ["X", "Y"]) none [],
        .moduleDecl (.relative ["M"]) [.moduleDecl (.relative ["X"]) []]]]
    (unfolded [] [] files).relocations = (relationsBegun [] [] files).relocations ∧
      ¬ (unfolded [] [] files).Still := by
  decide +kernel

/-- The mixins of the finished graph are those that the second pass recorded. -/
theorem mixed_built (still : (unfolded ignored styles files).Still) (mixin : Mixin) (a b : NodeId) :
    (built ignored styles files).net.Relates a b mixin.relation ↔
      ∃ met ∈ meetings (relationsBegun ignored styles files) files,
        met.mixin = mixin ∧ met.Records a b := by
  have hwalk : Met _ (unfolded ignored styles files) _ :=
    met_foldl_replay files (relationsBegun ignored styles files)
  rw [built_eq, still.net_endPass, hwalk.relates]
  exact or_iff_right (unmixed_relationsBegun mixin a b)

/-! ## What could be found in time -/

/-- The time of a statement lies between the start of the second pass and its end. -/
theorem grown_of_met {met : Meeting} (still : (unfolded ignored styles files).Still)
    (hmet : met ∈ meetings (relationsBegun ignored styles files) files) :
    Standing met.now ∧ met.now.pass = some .findRelations ∧
      Grown (relationsBegun ignored styles files).net met.now.net ∧
      Grown met.now.net (built ignored styles files).net := by
  have hstart := (walkLaw_unrooted.relationsBegun ignored styles files).1
  obtain ⟨hbefore, hafter⟩ := (met_foldl_replay files _).times met hmet
  obtain ⟨hnow, hgrown⟩ := hbefore.grown hstart
  refine ⟨hnow, hbefore.pass_eq, hgrown, ?_⟩
  rw [built_eq, still.net_endPass]
  exact (hafter.grown hnow).2

/-- A statement records what its target names in the end exactly if that could be found at its time. -/
theorem records_iff_foreseen {met : Meeting} {owner target : NodeId}
    (still : (unfolded ignored styles files).Still)
    (hmet : met ∈ meetings (relationsBegun ignored styles files) files)
    (names : met.Names (built ignored styles files) owner target) :
    met.Records owner target ↔
      Foreseen met.now.net (built ignored styles files).net met.target owner := by
  obtain ⟨hnow, hpass, _, hgrown⟩ := grown_of_met still hmet
  have hsound := (consistent_of_reachable (reachable_built ignored styles files)).sound
  have hunrooted : ¬ (built ignored styles files).net.Known ⟨[]⟩ := by
    rw [built_eq, still.net_endPass]
    exact (walkLaw_unrooted.unfolded ignored styles files).2
  have hlive := hnow.scope owner (mem_scope_of_top? names.top)
  rw [← hgrown.resolve_iff_foreseen hnow.sound hsound hlive hunrooted names.resolved]
  constructor
  · intro h
    exact h.1.resolved
  · intro h
    refine ⟨⟨hpass, names.top, ?_, h, ?_⟩, names.other.symm⟩
    · intro hself
      rw [hself] at h
      cases h
    · rw [← hgrown.kind target (hnow.sound.live_of_resolve h)]
      exact names.kind

/-- **Which resolvable mixins are recorded.** Let nothing be folded at the end of the second pass. A
mixin statement whose target names another module in the finished graph records it exactly if it could
be found at the time of the statement: the scope where the search for it ends was already open around
the statement, and all names on the way were known. All such mixins are in the finished graph if and only
if for each of them that is so, or another statement recorded the same mixin. It is so for all of them if
the second pass adds no node and puts no node into another. -/
theorem mixins_recorded_iff (still : (unfolded ignored styles files).Still) :
    (∀ met ∈ meetings (relationsBegun ignored styles files) files, ∀ owner target,
      met.Names (built ignored styles files) owner target →
        (met.Records owner target ↔
          Foreseen met.now.net (built ignored styles files).net met.target owner)) ∧
    (RecordsAll (built ignored styles files) (meetings (relationsBegun ignored styles files) files) ↔
      ∀ met ∈ meetings (relationsBegun ignored styles files) files, ∀ owner target,
        met.Names (built ignored styles files) owner target →
          Foreseen met.now.net (built ignored styles files).net met.target owner ∨
          ∃ other ∈ meetings (relationsBegun ignored styles files) files,
            other.mixin = met.mixin ∧ other.Records owner target) ∧
    ((∀ path, (built ignored styles files).net.Known path →
        (relationsBegun ignored styles files).net.Known path) →
      (∀ a b, (built ignored styles files).net.Relates a b .containment →
        (relationsBegun ignored styles files).net.Relates a b .containment) →
      RecordsAll (built ignored styles files)
        (meetings (relationsBegun ignored styles files) files)) := by
  have hsound := (consistent_of_reachable (reachable_built ignored styles files)).sound
  have hrecords := fun met hmet owner target =>
    @records_iff_foreseen ignored styles files met owner target still hmet
  refine ⟨hrecords, ⟨fun hall met hmet owner target names => ?_,
    fun hfound met hmet owner target names => ?_⟩, fun hnodes hcontainers => ?_⟩
  · exact .inr ((mixed_built still _ _ _).mp (hall met hmet owner target names))
  · refine (mixed_built still _ _ _).mpr ?_
    rcases hfound met hmet owner target names with hforeseen | hother
    · exact ⟨met, hmet, rfl, (hrecords met hmet owner target names).mpr hforeseen⟩
    · exact hother
  · -- the network is the same from the start of the second pass on
    intro met hmet owner target names
    obtain ⟨hnow, _, hbefore, hafter⟩ := grown_of_met still hmet
    have hlookup : ∀ path id, (built ignored styles files).net.lookup path = some id →
        met.now.net.lookup path = some id := by
      intro path id hid
      obtain ⟨old, hold⟩ := hbefore.known (hnodes path ⟨id, hid⟩)
      have hsame := hafter.lookup path old hold
      rw [hid] at hsame
      rw [hold, Option.some.inj hsame]
    have hback : Grown (built ignored styles files).net met.now.net := by
      refine ⟨hlookup, fun id hlive => ?_, fun a b hab => ?_⟩
      · refine (hafter.kind id ?_).symm
        exact hnow.sound.live_of_lookup (hlookup _ _ (hsound.lookup_pathOf hlive))
      · exact hbefore.containment a b (hcontainers a b hab)
    refine (mixed_built still _ _ _).mpr ⟨met, hmet, rfl, ?_⟩
    refine (hrecords met hmet owner target names).mpr ?_
    exact hback.foreseen hnow.sound hsound names.resolved

/-- A class `A::C::D` that includes `Z` stands before `A::C`, and that before `A`, which has a module
`Z`. -/
def namespacesLast : List (List Item) :=
  [[.classDecl (.relative ["A", "C", "D"]) none [.mixing .including [.relative ["Z"]]]],
    [.classDecl (.relative ["A", "C"]) none []],
    [.moduleDecl (.relative ["A"]) [.moduleDecl (.relative ["Z"]) []]]]

/-- In the other order of the files the second pass adds no node and no container. -/
theorem mixins_recorded_of_namespaces_first :
    (unfolded [] [] namespacesLast.reverse).Still ∧
      RecordsAll (built [] [] namespacesLast.reverse)
        (meetings (relationsBegun [] [] namespacesLast.reverse) namespacesLast.reverse) ∧
      (built [] [] namespacesLast.reverse).net.resolve (.relative ["Z"]) (some 3) = some 1 ∧
      (built [] [] namespacesLast.reverse).net.Relates 3 1 .inclusion := by
  have hstill : (unfolded [] [] namespacesLast.reverse).Still :=
    still_of_none_queued (by decide +kernel) (by decide +kernel)
  obtain ⟨_, _, hall⟩ := mixins_recorded_iff hstill
  refine ⟨hstill, hall ?_ ?_, by decide +kernel, hasEdge_iff.mp (by decide +kernel)⟩
  · have hindex : (built [] [] namespacesLast.reverse).net.index =
        (relationsBegun [] [] namespacesLast.reverse).net.index := by
      decide +kernel
    intro path h
    unfold Known lookup at h ⊢
    rw [← hindex]
    exact h
  · have hedges : ∀ edge ∈ (built [] [] namespacesLast.reverse).net.edges.entries.map Prod.snd,
        edge.relation = .containment →
          edge ∈ (relationsBegun [] [] namespacesLast.reverse).net.edges.entries.map Prod.snd := by
      decide +kernel
    intro a b h
    exact hedges _ h rfl

/-- When `A::C::D` is met again, `A::C` is known but not yet put into `A`, so `Z` is not found. In the end
it is, and nothing was relocated. -/
theorem missed_late_container :
    (unfolded [] [] namespacesLast).relocations = [] ∧
      ¬ RecordsAll (built [] [] namespacesLast)
        (meetings (relationsBegun [] [] namespacesLast) namespacesLast) := by
  refine ⟨by decide +kernel, fun hall => ?_⟩
  have hmet : ∃ met ∈ meetings (relationsBegun [] [] namespacesLast) namespacesLast,
      met.mixin = .including ∧ met.now.top? = some 0 ∧ met.target = .relative ["Z"] := by
    decide +kernel
  obtain ⟨met, hmem, hmixin, htop, htarget⟩ := hmet
  have hnames : met.Names (built [] [] namespacesLast) 0 3 := by
    refine ⟨htop, ?_, by decide +kernel, by decide⟩
    rw [htarget]
    decide +kernel
  have hedge := hasEdge_iff.mpr (hall met hmem 0 3 hnames)
  rw [hmixin] at hedge
  exact absurd hedge (by decide +kernel)

end Graph

end ClassAtlas
