import Mathlib.Data.List.Induction
import ClassAtlas.Proofs.DeclaredPaths
import ClassAtlas.Proofs.Finishing

/-!
# The states of a build

A build starts with the rules, walks over the declarations of all files in the first pass and again
in the second, ends each pass, applies the styles and prunes. `Observed` are the graphs that it goes
through, between any two operations: also those in the middle of a walk, at any depth of nesting.

A walk is made of four operations (`Step`). So a law of all states of a build (`Observed.law`) comes
down to what one operation of a walk keeps, what the folds at the end of the second pass do, and what
restyling or removing one node keeps.
-/

namespace ClassAtlas

namespace Graph

open Network

variable {g h now : Graph} {relating : Bool}

/-! ## The operations of a walk -/

/-- One operation in the course of a walk. -/
inductive Step : Graph → Graph → Prop
  | enter {g inner : Graph} {kind : Kind} {name : Reference} {path : Path} :
      g.enter kind name = some (path, inner) → Step g inner
  | leave (g : Graph) : Step g g.leave
  | inherit (g : Graph) (superclass : Reference) : Step g (g.inherit superclass).2
  | mix (g : Graph) (mixin : Mixin) (target : Reference) : Step g (g.mix mixin target).2

/-- Any number of operations of a walk. -/
def Steps : Graph → Graph → Prop :=
  Relation.ReflTransGen Step

theorem Steps.refl (g : Graph) : Steps g g :=
  Relation.ReflTransGen.refl

theorem Steps.trans {k : Graph} (first : Steps g h) (second : Steps h k) : Steps g k :=
  Relation.ReflTransGen.trans first second

theorem Steps.single (step : Step g h) : Steps g h :=
  Relation.ReflTransGen.single step

/-- The network is sound and the open scopes are nodes of it. -/
structure Standing (g : Graph) : Prop where
  sound : g.net.Sound
  scope : ∀ id ∈ g.scope, g.net.Live id

namespace Standing

theorem consistent (standing : Standing g) : Consistent g.scope.length g :=
  ⟨standing.sound, standing.scope, Nat.le_refl _⟩

theorem of_consistent {depth : Nat} (consistent : Consistent depth g) : Standing g :=
  ⟨consistent.sound, consistent.scope⟩

theorem step (standing : Standing g) (step : Step g h) : Standing h := by
  cases step with
  | enter hopen => exact .of_consistent (standing.consistent.enter hopen)
  | leave =>
      exact ⟨standing.sound, fun id hid => standing.scope id (List.mem_of_mem_tail hid)⟩
  | inherit superclass => exact .of_consistent (standing.consistent.inherit superclass)
  | mix mixin target => exact .of_consistent (standing.consistent.mix mixin target)

end Standing

/-- What one operation of a walk keeps, any number of them keeps. -/
theorem Steps.keeps {Q : Graph → Prop} (step : ∀ g h, Standing g → Step g h → Q g → Q h)
    (steps : Steps g h) (standing : Standing g) (start : Q g) : Standing h ∧ Q h := by
  induction steps with
  | refl => exact ⟨standing, start⟩
  | tail _ hstep ih => exact ⟨ih.1.step hstep, step _ _ ih.1 hstep ih.2⟩

/-! ## The course of a walk -/

/-- In the course of the walk over some declarations that starts in `g`, the graph is `now`. -/
inductive During (relating : Bool) : List Item → Graph → Graph → Prop
  | here {items : List Item} {g : Graph} : During relating items g g
  | later {item : Item} {rest : List Item} {g now : Graph} :
      During relating rest (replayItem relating item g) now → During relating (item :: rest) g now
  | opened {name : Reference} {superclass : Option Reference} {body rest : List Item}
      {g inner : Graph} {path : Path} : g.enter .classNode name = some (path, inner) →
      During relating (.classDecl name superclass body :: rest) g inner
  | inClass {name : Reference} {superclass : Option Reference} {body rest : List Item}
      {g inner now : Graph} {path : Path} : g.enter .classNode name = some (path, inner) →
      During relating body (if relating then inner.inheritFrom superclass else inner) now →
      During relating (.classDecl name superclass body :: rest) g now
  | inModule {name : Reference} {body rest : List Item} {g inner now : Graph} {path : Path} :
      g.enter .moduleNode name = some (path, inner) → During relating body inner now →
      During relating (.moduleDecl name body :: rest) g now
  | mixing {mixin : Mixin} {done todo : List Reference} {rest : List Item} {g : Graph} :
      relating = true →
      During relating (.mixing mixin (done ++ todo) :: rest) g (g.mixAll mixin done)

/-- In the course of the walk over some files that starts in `g`, the graph is `now`. -/
inductive DuringFiles : List (List Item) → Graph → Graph → Prop
  | here {files : List (List Item)} {g : Graph} : DuringFiles files g g
  | inside {file : List Item} {rest : List (List Item)} {g now : Graph} :
      During (g.pass == some .findRelations) file g now → DuringFiles (file :: rest) g now
  | later {file : List Item} {rest : List (List Item)} {g now : Graph} :
      DuringFiles rest (g.replay file) now → DuringFiles (file :: rest) g now

theorem steps_inheritFrom (g : Graph) (superclass : Option Reference) :
    Steps g (g.inheritFrom superclass) := by
  cases superclass with
  | none => exact .refl g
  | some superclass => exact .single (.inherit g superclass)

theorem steps_mixAll (g : Graph) (mixin : Mixin) (targets : List Reference) :
    Steps g (g.mixAll mixin targets) := by
  unfold mixAll
  induction targets generalizing g with
  | nil => exact .refl g
  | cons target rest ih => exact (Steps.single (.mix g mixin target)).trans (ih _)

/-- Opening a class declaration and recording its superclass. -/
theorem steps_openClass {inner : Graph} {name : Reference} {path : Path}
    (hopen : g.enter .classNode name = some (path, inner)) (superclass : Option Reference) :
    Steps g (if relating then inner.inheritFrom superclass else inner) := by
  refine (Steps.single (.enter hopen)).trans ?_
  cases relating with
  | false => exact .refl inner
  | true => exact steps_inheritFrom inner superclass

theorem steps_declare {kind : Kind} {name : Reference} {body : Graph → Graph}
    (inside : ∀ path inner, g.enter kind name = some (path, inner) → Steps g (body inner)) :
    Steps g (g.declare kind name body).2 := by
  unfold declare
  cases hopen : g.enter kind name with
  | none => exact .refl g
  | some entered => exact (inside entered.1 entered.2 hopen).trans (.single (.leave _))

/-- A walk is made of operations. -/
theorem steps_replay (relating : Bool) :
    (∀ item g, Steps g (replayItem relating item g)) ∧
      ∀ items g, Steps g (replayItems relating items g) := by
  apply Item.induct
  case classDecl =>
    intro name superclass body ih g
    unfold replayItem
    exact steps_declare fun path inner hopen => (steps_openClass hopen superclass).trans (ih _)
  case moduleDecl =>
    intro name body ih g
    unfold replayItem
    exact steps_declare fun path inner hopen => (Steps.single (.enter hopen)).trans (ih inner)
  case mixing =>
    intro mixin targets g
    unfold replayItem
    cases relating with
    | false => exact .refl g
    | true => exact steps_mixAll g mixin targets
  case nil => exact fun g => .refl g
  case cons =>
    intro item rest ihItem ihRest g
    exact (ihItem g).trans (ihRest _)

theorem steps_foldl_replay (files : List (List Item)) (g : Graph) :
    Steps g (files.foldl replay g) := by
  induction files generalizing g with
  | nil => exact .refl g
  | cons file rest ih => exact ((steps_replay _).2 file g).trans (ih _)

theorem During.steps {items : List Item} (during : During relating items g now) : Steps g now := by
  induction during with
  | here => exact .refl _
  | later _ ih => exact ((steps_replay relating).1 _ _).trans ih
  | opened hopen => exact .single (.enter hopen)
  | inClass hopen _ ih => exact (steps_openClass hopen _).trans ih
  | inModule hopen _ ih => exact (Steps.single (.enter hopen)).trans ih
  | mixing _ => exact steps_mixAll _ _ _

theorem DuringFiles.steps {files : List (List Item)} (during : DuringFiles files g now) :
    Steps g now := by
  induction during with
  | here => exact .refl _
  | inside hfile => exact hfile.steps
  | later _ ih => exact ((steps_replay _).2 _ _).trans ih

/-! ## The course of a build -/

/-- The graph that has its rules and nothing else. -/
def ruled (ignored : List Matcher) (styles : List (Matcher × Style)) : Graph :=
  { Graph.empty with excludeRules := ignored, styleRules := styles }

/-- What may be done to a graph that is built: styles are applied and nodes are pruned. -/
inductive Finished (built : Graph) : Graph → Prop
  | built : Finished built built
  | applyStyles {g : Graph} : Finished built g → Finished built g.applyStyles
  | prune {g : Graph} : Finished built g → Finished built g.prune.2
  | pruneAll {g : Graph} : Finished built g → Finished built g.pruneAll.2

section Build

variable (ignored : List Matcher) (styles : List (Matcher × Style)) (files : List (List Item))

/-- The start of the first walk. -/
def nodesBegun : Graph :=
  (ruled ignored styles).beginPass .findNodes

/-- The start of the second walk. -/
def relationsBegun : Graph :=
  ((ruled ignored styles).runPass .findNodes files).beginPass .findRelations

/-- The graph after the second walk, before the folds. -/
def unfolded : Graph :=
  files.foldl replay (relationsBegun ignored styles files)

/-- The graph after both passes. -/
def built : Graph :=
  (ruled ignored styles).build files

/-- The graphs that a build goes through before the second pass ends. -/
inductive Underway : Graph → Prop
  | defined : Underway (ruled ignored styles)
  | nodes {now : Graph} : DuringFiles files (nodesBegun ignored styles) now → Underway now
  | between : Underway ((ruled ignored styles).runPass .findNodes files)
  | relations {now : Graph} :
      DuringFiles files (relationsBegun ignored styles files) now → Underway now

/-- The graphs that a build goes through, between any two operations. -/
inductive Observed : Graph → Prop
  | underway {g : Graph} : Underway ignored styles files g → Observed g
  | finished {g : Graph} : Finished (built ignored styles files) g → Observed g

theorem built_eq : built ignored styles files = (unfolded ignored styles files).endPass := rfl

theorem standing_ruled : Standing (ruled ignored styles) :=
  ⟨sound_empty, by simp [ruled, Graph.empty]⟩

theorem reachable_ruled : Reachable 0 (ruled ignored styles) := by
  have hignored : Reachable 0 (ruled ignored []) := by
    induction ignored using List.reverseRecOn with
    | nil => exact .empty
    | append_singleton rest matcher ih => exact ih.ignore rfl
  induction styles using List.reverseRecOn with
  | nil => exact hignored
  | append_singleton rest style ih => exact ih.style rfl

theorem reachable_unfolded : Reachable 0 (unfolded ignored styles files) :=
  (((reachable_ruled ignored styles).runPass .findNodes files).beginPass .findRelations).foldl_replay
    files

theorem reachable_built : Reachable 0 (built ignored styles files) :=
  (reachable_unfolded ignored styles files).endPass

end Build

variable {ignored : List Matcher} {styles : List (Matcher × Style)} {files : List (List Item)}

theorem Finished.reachable {start : Graph} (finished : Finished start g) (h : Reachable 0 start) :
    Reachable 0 g := by
  induction finished with
  | built => exact h
  | applyStyles _ ih => exact ih.applyStyles
  | prune _ ih => exact ih.prune
  | pruneAll _ ih => exact ih.pruneAll

theorem Standing.beginPass (standing : Standing g) (pass : Pass) : Standing (g.beginPass pass) :=
  ⟨standing.sound, by simp [Graph.beginPass, Graph.note]⟩

/-- The end of the first walk folds nothing. -/
theorem runPass_findNodes_eq (g : Graph) (files : List (List Item)) :
    ∃ journal, g.runPass .findNodes files =
      { files.foldl replay (g.beginPass .findNodes) with scope := [], pass := none, journal } := by
  have hpass : (files.foldl replay (g.beginPass .findNodes)).pass = some .findNodes :=
    (walked_foldl_replay files (g.beginPass .findNodes)).pass
  refine ⟨(files.foldl replay (g.beginPass .findNodes)).closed.journal, ?_⟩
  show (files.foldl replay (g.beginPass .findNodes)).endPass = _
  rw [endPass_eq, hpass, if_neg (by decide), closed_eq]

theorem pass_unfolded : (unfolded ignored styles files).pass = some .findRelations :=
  (walked_foldl_replay files (relationsBegun ignored styles files)).pass

/-- What is true of every graph in the course of the walks: it is true at the start, it does not
depend on the scopes, the pass and the journal, and every operation of a walk keeps it. -/
structure WalkLaw (Q : Graph → Prop) : Prop where
  start : ∀ ignored styles, Q (ruled ignored styles)
  setting : ∀ (g : Graph) scope pass rulesFrozen journal, Q g →
    Q { g with scope, pass, rulesFrozen, journal }
  step : ∀ g h, Standing g → Step g h → Q g → Q h

namespace WalkLaw

variable {Q : Graph → Prop}

theorem walk (law : WalkLaw Q) (steps : Steps g now) (standing : Standing g) (start : Q g) :
    Standing now ∧ Q now :=
  steps.keeps law.step standing start

theorem beginPass (law : WalkLaw Q) (pass : Pass) (start : Q g) : Q (g.beginPass pass) :=
  law.setting g [] (some pass) true _ start

theorem nodesBegun (law : WalkLaw Q) (ignored : List Matcher) (styles : List (Matcher × Style)) :
    Standing (nodesBegun ignored styles) ∧ Q (nodesBegun ignored styles) :=
  ⟨(standing_ruled ignored styles).beginPass .findNodes,
    law.beginPass .findNodes (law.start ignored styles)⟩

theorem between (law : WalkLaw Q) (ignored : List Matcher) (styles : List (Matcher × Style))
    (files : List (List Item)) :
    Standing ((ruled ignored styles).runPass .findNodes files) ∧
      Q ((ruled ignored styles).runPass .findNodes files) := by
  obtain ⟨hstanding, hlaw⟩ := law.nodesBegun ignored styles
  obtain ⟨hstanding, hlaw⟩ := law.walk (steps_foldl_replay files _) hstanding hlaw
  obtain ⟨journal, heq⟩ := runPass_findNodes_eq (ruled ignored styles) files
  rw [heq]
  exact ⟨⟨hstanding.sound, by simp⟩, law.setting _ [] none _ journal hlaw⟩

theorem relationsBegun (law : WalkLaw Q) (ignored : List Matcher) (styles : List (Matcher × Style))
    (files : List (List Item)) :
    Standing (relationsBegun ignored styles files) ∧ Q (relationsBegun ignored styles files) := by
  obtain ⟨hstanding, hlaw⟩ := law.between ignored styles files
  exact ⟨hstanding.beginPass .findRelations, law.beginPass .findRelations hlaw⟩

theorem unfolded (law : WalkLaw Q) (ignored : List Matcher) (styles : List (Matcher × Style))
    (files : List (List Item)) :
    Standing (unfolded ignored styles files) ∧ Q (unfolded ignored styles files) := by
  obtain ⟨hstanding, hlaw⟩ := law.relationsBegun ignored styles files
  exact law.walk (steps_foldl_replay files _) hstanding hlaw

theorem underway (law : WalkLaw Q) (underway : Underway ignored styles files g) : Q g := by
  cases underway with
  | defined => exact law.start ignored styles
  | nodes during =>
      obtain ⟨hstanding, hstart⟩ := law.nodesBegun ignored styles
      exact (law.walk during.steps hstanding hstart).2
  | between => exact (law.between ignored styles files).2
  | relations during =>
      obtain ⟨hstanding, hstart⟩ := law.relationsBegun ignored styles files
      exact (law.walk during.steps hstanding hstart).2

end WalkLaw

theorem walkLaw_sound : WalkLaw (fun g => g.net.Sound) where
  start := fun ignored styles => (standing_ruled ignored styles).sound
  setting := fun _ _ _ _ _ sound => sound
  step := fun _ _ standing step _ => (standing.step step).sound

/-! ## Laws of all states -/

section Law

variable {P : Network → Prop}
  (restyle : ∀ net id attributes, P net → P (restyled net id attributes))
  (remove : ∀ (net : Network) id, net.Sound → P net → P (net.removeNode id))

include restyle remove

/-- What restyling or removing one node keeps, finishing keeps. -/
theorem Finished.keeps {start : Graph} (finished : Finished start g) (h : Reachable 0 start)
    (law : P start.net) : P g.net := by
  induction finished with
  | built => exact law
  | applyStyles _ ih => exact applyStyles_keeps restyle ih
  | prune hdone ih => exact prune_keeps remove (consistent_of_reachable (hdone.reachable h)).sound ih
  | pruneAll hdone ih =>
      exact pruneAll_keeps remove (consistent_of_reachable (hdone.reachable h)).sound ih

/-- A law of the networks of all states: it follows from a law of the walks, it holds after the folds,
and restyling or removing one node keeps it. -/
theorem Observed.law {Q : Graph → Prop} (walks : WalkLaw Q) (walked : ∀ g, Q g → P g.net)
    (folded : P (built ignored styles files).net) (observed : Observed ignored styles files g) :
    P g.net := by
  cases observed with
  | underway hearly => exact walked g (walks.underway hearly)
  | finished hdone => exact hdone.keeps restyle remove (reachable_built ignored styles files) folded

end Law

theorem Observed.sound (observed : Observed ignored styles files g) : g.net.Sound := by
  refine observed.law ?_ ?_ walkLaw_sound (fun _ sound => sound)
    (consistent_of_reachable (reachable_built ignored styles files)).sound
  · exact fun net id attributes sound => sound.modifyNode fun _ => rfl
  · exact fun net id sound _ => sound.removeNode id

end Graph

end ClassAtlas
