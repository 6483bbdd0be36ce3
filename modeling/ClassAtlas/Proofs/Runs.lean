import ClassAtlas.Proofs.Reachable

/-!
# Runs of operations

A run is any sequence of operations on the empty graph, with no order between them asked for: rules
may be given late, a pass may be left open, a scope may be closed that was never opened. So a law of
all runs is a law of all graphs that a caller can make, and a run also tells what has been done to a
graph so far. Every reachable graph is made by a run (`Reachable.exists_run`).

If something is true at the end of a run and not of the empty graph, there is a first operation after
which it is true (`exists_first`).
-/

namespace ClassAtlas

namespace Graph

/-- What a caller can do to a graph. A declaration is two operations, with those of its body between
them. -/
inductive Operation where
  | ignore (matcher : Matcher)
  | style (matcher : Matcher) (attributes : Style)
  | install (reader : PatternReader) (rules : RuleSet)
  | beginPass (pass : Pass)
  | endPass
  | enter (kind : Kind) (name : Reference)
  | leave
  | inherit (superclass : Reference)
  | mix (mixin : Mixin) (target : Reference)
  | resolve (name : Reference) (origin : Option Path)
  | applyStyles
  | prune
  | pruneAll

/-- The graph after an operation. A rule that is refused and a name that declares nothing leave it as
it is. -/
def perform (g : Graph) : Operation → Graph
  | .ignore matcher =>
    match g.ignore matcher with
    | .ok added => added
    | .error _ => g
  | .style matcher attributes =>
    match g.style matcher attributes with
    | .ok added => added
    | .error _ => g
  | .install reader rules => (g.install reader rules).2
  | .beginPass pass => g.beginPass pass
  | .endPass => g.endPass
  | .enter kind name =>
    match g.enter kind name with
    | some (_, inner) => inner
    | none => g
  | .leave => g.leave
  | .inherit superclass => (g.inherit superclass).2
  | .mix mixin target => (g.mix mixin target).2
  | .resolve _ _ => g
  | .applyStyles => g.applyStyles
  | .prune => g.prune.2
  | .pruneAll => g.pruneAll.2

/-- The graph after some operations. -/
def performAll (g : Graph) (operations : List Operation) : Graph :=
  operations.foldl perform g

/-- The graph that a run makes. -/
def afterRun (run : List Operation) : Graph :=
  Graph.empty.performAll run

theorem afterRun_append (run later : List Operation) :
    afterRun (run ++ later) = (afterRun run).performAll later :=
  List.foldl_append

theorem afterRun_concat (run : List Operation) (operation : Operation) :
    afterRun (run ++ [operation]) = (afterRun run).perform operation :=
  afterRun_append run [operation]

/-- What every operation keeps, any number of them keeps. -/
theorem performAll_keeps {Q : Graph → Prop} (step : ∀ g operation, Q g → Q (g.perform operation))
    (operations : List Operation) {g : Graph} (start : Q g) : Q (g.performAll operations) := by
  induction operations generalizing g with
  | nil => exact start
  | cons operation rest ih => exact ih (step g operation start)

/-- Every reachable graph is made by a run. -/
theorem Reachable.exists_run {depth : Nat} {g : Graph} (h : Reachable depth g) :
    ∃ run, afterRun run = g := by
  -- one more operation at the end of a run
  have extend : ∀ {now : Graph} (operation : Operation), (∃ run, afterRun run = now) →
      ∃ run, afterRun run = now.perform operation := by
    rintro _ operation ⟨run, rfl⟩
    exact ⟨run ++ [operation], afterRun_concat run operation⟩
  induction h with
  | empty => exact ⟨[], rfl⟩
  | @ignore _ _ _ matcher _ hok ih => simpa only [perform, hok] using extend (.ignore matcher) ih
  | @style _ _ _ matcher attributes _ hok ih =>
      simpa only [perform, hok] using extend (.style matcher attributes) ih
  | beginPass pass _ ih => exact extend (.beginPass pass) ih
  | endPass _ ih => exact extend .endPass ih
  | @enter _ _ _ kind name _ _ hopen ih =>
      simpa only [perform, hopen] using extend (.enter kind name) ih
  | leave _ ih => exact extend .leave ih
  | inherit superclass _ ih => exact extend (.inherit superclass) ih
  | mix mixin target _ ih => exact extend (.mix mixin target) ih
  | applyStyles _ ih => exact extend .applyStyles ih
  | prune _ ih => exact extend .prune ih
  | pruneAll _ ih => exact extend .pruneAll ih

/-- In the course of the operations, `P` is not true at first and then `operation` makes it true. -/
theorem exists_first {P : Graph → Prop} (operations : List Operation) (g : Graph) (start : ¬ P g)
    (there : P (g.performAll operations)) :
    ∃ before operation after, operations = before ++ operation :: after ∧
      (∀ earlier, earlier <+: before → ¬ P (g.performAll earlier)) ∧
      P ((g.performAll before).perform operation) := by
  induction operations generalizing g with
  | nil => exact absurd there start
  | cons first rest ih =>
      by_cases hfirst : P (g.perform first)
      · refine ⟨[], first, rest, rfl, fun earlier hearlier => ?_, hfirst⟩
        rw [List.prefix_nil.mp hearlier]
        exact start
      · obtain ⟨before, operation, after, hsplit, hnone, hmade⟩ := ih (g.perform first) hfirst there
        refine ⟨first :: before, operation, after, by rw [hsplit, List.cons_append], ?_, hmade⟩
        intro earlier hearlier
        rcases List.prefix_cons_iff.mp hearlier with rfl | ⟨later, rfl, hlater⟩
        · exact start
        · exact hnone later hlater

end Graph

end ClassAtlas
