import ClassAtlas.Proofs.Installation

/-!
# Recording relations

A superclass or a mixin adds one edge or none, and the answer says which. The edge goes from the
innermost declaration to what the name resolves to. If none is added, nothing changes, except that
`extend self` marks a module.

All this takes place while relations are looked for. At any other time no operation adds a superclass,
a mixin or a mark (`perform_gainsNone`), so in every run each of them comes first in that pass
(`firstWhileRelating`).
-/

namespace ClassAtlas

namespace Graph

open Network

variable {g h : Graph}

/-! ## One edge or nothing -/

/-- The second graph is the first with one more edge, which the first does not have. -/
structure AddsEdge (g h : Graph) (source target : NodeId) (relation : Relation) : Prop where
  absent : ¬ g.net.Relates source target relation
  after : h = { g with net := g.net.addEdge source target relation }

theorem AddsEdge.relates {source target : NodeId} {relation : Relation}
    (adds : AddsEdge g h source target relation) : h.net.Relates source target relation := by
  rw [adds.after]
  exact relates_addEdge.mpr (.inl ⟨rfl, rfl, rfl⟩)

/-- Connecting two nodes adds their edge and says so, or leaves the graph as it is. -/
theorem connect_cases (g : Graph) (source target : NodeId) (relation : Relation) :
    ((g.connect source target relation).1 = true ∧
      AddsEdge g (g.connect source target relation).2 source target relation) ∨
    g.connect source target relation = (false, g) := by
  cases hadmits : g.net.admits source target relation with
  | true =>
    refine .inl ⟨hadmits, (admits_iff.mp hadmits).2.1, ?_⟩
    simp only [connect, link, hadmits, if_true]
  | false =>
    right
    simp only [connect, link, hadmits, Bool.false_eq_true, if_false]

/-- The answer of an operation is true if and only if it added an edge from `source` to `target` and
did nothing else. -/
def Records (g : Graph) (source target : Option NodeId) (relation : Relation)
    (outcome : Bool × Graph) : Prop :=
  outcome.1 = true ↔
    ∃ a b, source = some a ∧ target = some b ∧ AddsEdge g outcome.2 a b relation

section Records

variable {source target : Option NodeId} {relation : Relation} {outcome : Bool × Graph}

theorem records_of_none (answer : outcome.1 = false)
    (none : ∀ a b, outcome.2.net.Relates a b relation → g.net.Relates a b relation) :
    Records g source target relation outcome := by
  unfold Records
  rw [answer]
  refine iff_of_false Bool.false_ne_true ?_
  rintro ⟨a, b, _, _, hadds⟩
  exact hadds.absent (none a b hadds.relates)

theorem records_of_noted (answer : outcome.1 = false) (noted : Noted g outcome.2) :
    Records g source target relation outcome := by
  refine records_of_none answer fun a b hrelates => ?_
  rw [noted] at hrelates
  exact hrelates

theorem records_connect {a b : NodeId} (hsource : source = some a) (htarget : target = some b) :
    Records g source target relation (g.connect a b relation) := by
  rcases g.connect_cases a b relation with ⟨htrue, hadds⟩ | hsame
  · exact iff_of_true htrue ⟨a, b, hsource, htarget, hadds⟩
  · rw [hsame]
    exact records_of_noted rfl (.refl g)

end Records

theorem noted_of_connect {a b : NodeId} {relation : Relation}
    (answer : (g.connect a b relation).1 = false) : Noted g (g.connect a b relation).2 := by
  rcases g.connect_cases a b relation with ⟨htrue, _⟩ | hsame
  · rw [htrue] at answer
    cases answer
  · rw [hsame]
    exact .refl g

theorem records_inherit (g : Graph) (superclass : Reference) :
    Records g g.top? (g.net.resolve superclass g.superclassOrigin) .inheritance
      (g.inherit superclass) := by
  rcases g.inherit_cases superclass with ⟨cls, target, hin, heq⟩ | ⟨hfalse, hnoted, _⟩
  · rw [heq]
    exact records_connect hin.top hin.resolved
  · exact records_of_noted hfalse hnoted

theorem noted_of_inherit {superclass : Reference} (answer : (g.inherit superclass).1 = false) :
    Noted g (g.inherit superclass).2 := by
  rcases g.inherit_cases superclass with ⟨cls, target, _, heq⟩ | ⟨_, hnoted, _⟩
  · rw [heq] at answer ⊢
    exact noted_of_connect answer
  · exact hnoted

/-- The second graph is the first with a mark on the innermost declaration, which is a module. -/
structure MarksInnermost (g h : Graph) : Prop where
  pass : g.pass = some .findRelations
  marked : ∃ owner, g.top? = some owner ∧ g.net.kindOf? owner = some .moduleNode ∧
    h = { g with net := g.net.markSingleton owner }

theorem records_mix (g : Graph) (mixin : Mixin) (name : Reference) :
    Records g g.top? (g.net.resolve name g.top?) mixin.relation (g.mix mixin name) := by
  rcases g.mix_cases mixin name with ⟨owner, target, hin, heq⟩ | ⟨owner, _, _, hself, _, heq⟩ |
    ⟨hfalse, hnoted, _⟩
  · rw [heq]
    refine records_connect hin.top ?_
    rw [hin.top]
    exact hin.resolved
  · -- a mark is no edge
    refine records_of_none (by rw [heq]) fun a b hrelates => ?_
    rcases (g.relates_mix mixin name).mp hrelates with hbefore | ⟨_, hmixes, _⟩
    · exact hbefore
    · exact absurd hself hmixes.other
  · exact records_of_noted hfalse hnoted

theorem noted_or_marks_of_mix {mixin : Mixin} {name : Reference}
    (answer : (g.mix mixin name).1 = false) :
    Noted g (g.mix mixin name).2 ∨
      (mixin = .extending ∧ name = .selfRef ∧ MarksInnermost g (g.mix mixin name).2) := by
  rcases g.mix_cases mixin name with
    ⟨owner, target, _, heq⟩ | ⟨owner, hpass, htop, hself, hextending, heq⟩ | ⟨_, hnoted, _⟩
  · rw [heq] at answer ⊢
    exact .inl (noted_of_connect answer)
  · rw [heq]
    rcases g.markSingleton_cases owner with ⟨hmodule, hmark⟩ | ⟨_, hnoted⟩
    · exact .inr ⟨hextending, hself, hpass, owner, htop, hmodule, hmark⟩
    · exact .inl hnoted
  · exact .inl hnoted

/-! ## Outside the pass -/

/-- Operations that name something that is declared elsewhere. -/
def Operation.Refers : Operation → Prop
  | .inherit _ => True
  | .mix _ _ => True
  | .resolve _ _ => True
  | _ => False

theorem noted_of_refers (operation : Operation) (refers : operation.Refers)
    (pass : g.pass ≠ some .findRelations) : Noted g (g.perform operation) := by
  cases operation with
  | inherit superclass =>
    rcases g.inherit_cases superclass with ⟨_, _, hin, _⟩ | ⟨_, hnoted, _⟩
    · exact absurd hin.pass pass
    · exact hnoted
  | mix mixin name =>
    rcases g.mix_cases mixin name with ⟨_, _, hin, _⟩ | ⟨_, hpass, _⟩ | ⟨_, hnoted, _⟩
    · exact absurd hin.pass pass
    · exact absurd hpass pass
    · exact hnoted
  | resolve name origin => exact .refl g
  | _ => exact refers.elim

theorem live_perform_of_refers (operation : Operation) (refers : operation.Refers) (id : NodeId) :
    (g.perform operation).net.Live id ↔ g.net.Live id := by
  have hkept : Kept g (g.perform operation) := by
    cases operation with
    | inherit superclass => exact .inherit g superclass
    | mix mixin name => exact .mix g mixin name
    | resolve name origin => exact .refl g
    | _ => exact refers.elim
  rw [live_iff_content?, live_iff_content?, hkept.content]

/-- The second network has no superclass, mixin or mark that the first does not have. -/
structure GainsNone (before after : Network) : Prop where
  relation : ∀ {a b r}, r ≠ .containment → after.Relates a b r → before.Relates a b r
  mark : ∀ {id}, after.isSingleton id = true → before.isSingleton id = true

namespace GainsNone

variable {first second third : Network}

theorem refl (net : Network) : GainsNone net net :=
  ⟨fun _ h => h, fun h => h⟩

theorem trans (left : GainsNone first second) (right : GainsNone second third) :
    GainsNone first third :=
  ⟨fun hother h => left.relation hother (right.relation hother h), fun h => left.mark (right.mark h)⟩

theorem of_noted (noted : Noted g h) : GainsNone g.net h.net := by
  rw [noted]
  exact .refl g.net

theorem addNode (net : Network) (path : Path) (kind : Kind) :
    GainsNone net (net.addNode { path := path, kind := kind }) := by
  refine ⟨fun _ h => relates_addNode.mp h, fun {id} hmark => ?_⟩
  unfold isSingleton at hmark
  rw [node?_addNode] at hmark
  by_cases hid : id = net.nextId
  · rw [if_pos hid] at hmark
    cases hmark
  · rw [if_neg hid] at hmark
    exact hmark

theorem containedNet (net : Network) (outer : Option NodeId) (id : NodeId) :
    GainsNone net (containedNet net outer id) := by
  refine ⟨fun hother hrelates => ?_, fun hmark => ?_⟩
  · rcases relates_containedNet.mp hrelates with hbefore | ⟨_, _, hcontainment, _⟩
    · exact hbefore
    · exact absurd hcontainment hother
  · unfold isSingleton at hmark
    rw [node?_containedNet] at hmark
    exact hmark

theorem enter {inner : Graph} {kind : Kind} {name : Reference} {path : Path}
    (hopen : g.enter kind name = some (path, inner)) : GainsNone g.net inner.net := by
  obtain ⟨outer, id, _, hentered⟩ := entered_of_enter hopen
  rcases hentered.net with ⟨_, hnet⟩ | ⟨_, _, hnet⟩
  · rw [hnet]
    exact .containedNet g.net outer id
  · rw [hnet]
    exact (GainsNone.addNode g.net path kind).trans (.containedNet _ outer id)

theorem restyled (net : Network) (id : NodeId) (attributes : Style) :
    GainsNone net (restyled net id attributes) := by
  refine ⟨fun _ h => relates_modifyNode.mp h, fun {other} hmark => ?_⟩
  unfold isSingleton Graph.restyled at hmark
  rw [node?_modifyNode] at hmark
  unfold isSingleton
  by_cases hother : other = id
  · rw [if_pos hother] at hmark
    cases hnode : net.node? other with
    | none => rw [hnode] at hmark; cases hmark
    | some node => rw [hnode] at hmark; exact hmark
  · rw [if_neg hother] at hmark
    exact hmark

theorem removeNode (net : Network) (id : NodeId) : GainsNone net (net.removeNode id) := by
  refine ⟨fun _ hrelates => ?_, fun {other} hmark => ?_⟩
  · -- which edges go takes a sound network to say, but none comes
    unfold Network.removeNode at hrelates
    split at hrelates
    · exact hrelates
    · exact relates_of_removeEdges hrelates
  · unfold isSingleton at hmark
    rw [node?_removeNode] at hmark
    by_cases hother : other = id
    · rw [if_pos hother] at hmark
      cases hmark
    · rw [if_neg hother] at hmark
      exact hmark

theorem drop (now : Graph) (id : NodeId) (gained : GainsNone g.net now.net) :
    GainsNone g.net (now.drop id).net :=
  gained.trans (.removeNode now.net id)

end GainsNone

/-- While relations are not looked for, no operation adds a superclass, a mixin or a mark. -/
theorem perform_gainsNone (operation : Operation) (pass : g.pass ≠ some .findRelations) :
    GainsNone g.net (g.perform operation).net := by
  cases operation with
  | ignore matcher =>
    cases hrules : g.rulesFrozen with
    | true =>
      simp only [perform, ignore_of_frozen hrules]
      exact .refl g.net
    | false =>
      simp only [perform, ignore_of_editable hrules]
      exact .refl g.net
  | style matcher attributes =>
    cases hrules : g.rulesFrozen with
    | true =>
      simp only [perform, style_of_frozen hrules]
      exact .refl g.net
    | false =>
      simp only [perform, style_of_editable hrules]
      exact .refl g.net
  | install reader rules =>
    rcases g.install_cases reader rules with ⟨_, _, heq⟩ | ⟨_, _, _, _, heq⟩ | ⟨_, _, _, heq⟩
    all_goals
      simp only [perform, heq]
      exact .refl g.net
  | beginPass next => exact .refl g.net
  | endPass =>
    -- nodes are moved only at the end of the pass that looks for relations
    have hclosed : g.endPass.net = g.net := by
      rw [endPass_eq, if_neg pass, closed_eq]
    show GainsNone g.net g.endPass.net
    rw [hclosed]
    exact .refl g.net
  | enter kind name =>
    cases hopen : g.enter kind name with
    | none =>
      simp only [perform, hopen]
      exact .refl g.net
    | some entered =>
      simp only [perform, hopen]
      exact .enter hopen
  | leave => exact .refl g.net
  | inherit superclass => exact .of_noted (noted_of_refers (.inherit superclass) trivial pass)
  | mix mixin name => exact .of_noted (noted_of_refers (.mix mixin name) trivial pass)
  | resolve name origin => exact .refl g.net
  | applyStyles =>
    exact applyStyles_keeps (P := fun net => GainsNone g.net net)
      (fun net id attributes gained => gained.trans (.restyled net id attributes)) (.refl g.net)
  | prune => exact foldl_drop_keeps GainsNone.drop g.prunees g (.refl g.net)
  | pruneAll =>
    exact pruneRounds_keeps GainsNone.drop (fun _ _ gained => gained) g.nodeCount 1 g (.refl g.net)

/-! ## Runs -/

/-- In the course of the run something comes true, for the first time, by an operation of the pass that
looks for relations. -/
def FirstWhileRelating (run : List Operation) (P : Graph → Prop) : Prop :=
  ∃ before operation after, run = before ++ operation :: after ∧
    (∀ earlier, earlier <+: before → ¬ P (afterRun earlier)) ∧
    P (afterRun (before ++ [operation])) ∧ (afterRun before).pass = some .findRelations

/-- What is not true at first, and comes true only while relations are looked for. -/
theorem firstWhileRelating {P : Graph → Prop} {run : List Operation} (start : ¬ P Graph.empty)
    (step : ∀ (g : Graph) operation, g.pass ≠ some .findRelations → P (g.perform operation) → P g)
    (there : P (afterRun run)) : FirstWhileRelating run P := by
  obtain ⟨before, operation, after, hsplit, hnone, hmade⟩ := exists_first run Graph.empty start there
  refine ⟨before, operation, after, hsplit, hnone, ?_, ?_⟩
  · rw [afterRun_concat]
    exact hmade
  · by_contra hpass
    exact hnone before (List.prefix_refl before) (step _ operation hpass hmade)

/-- **Recording a relation adds one edge or nothing.** A superclass is recorded, with the answer true,
if and only if one edge is added, from the innermost declaration to what the name resolves to from
around it; a mixin, to what the name resolves to from inside it. Else the graph is as it was, except
that `extend self` marks a module. References make no nodes, and they do nothing while relations are
not looked for. At such times no operation adds a superclass, a mixin or a mark; so in every run each
of these is first there while relations are looked for. -/
theorem recording_adds_one_edge_or_nothing (g : Graph) :
    (∀ superclass,
      Records g g.top? (g.net.resolve superclass g.superclassOrigin) .inheritance
        (g.inherit superclass) ∧
      ((g.inherit superclass).1 = false → Noted g (g.inherit superclass).2)) ∧
    (∀ mixin name,
      Records g g.top? (g.net.resolve name g.top?) mixin.relation (g.mix mixin name) ∧
      ((g.mix mixin name).1 = false → Noted g (g.mix mixin name).2 ∨
        (mixin = .extending ∧ name = .selfRef ∧ MarksInnermost g (g.mix mixin name).2))) ∧
    (∀ operation, operation.Refers → ∀ id, (g.perform operation).net.Live id ↔ g.net.Live id) ∧
    (g.pass ≠ some .findRelations → ∀ operation,
      (operation.Refers → Noted g (g.perform operation)) ∧
      GainsNone g.net (g.perform operation).net) ∧
    ∀ run,
      (∀ a b r, r ≠ .containment → (afterRun run).net.Relates a b r →
        FirstWhileRelating run (fun now => now.net.Relates a b r)) ∧
      ∀ id, (afterRun run).net.isSingleton id = true →
        FirstWhileRelating run (fun now => now.net.isSingleton id = true) := by
  refine ⟨fun superclass => ⟨records_inherit g superclass, noted_of_inherit⟩,
    fun mixin name => ⟨records_mix g mixin name, noted_or_marks_of_mix⟩,
    live_perform_of_refers, ?_, fun run => ⟨?_, ?_⟩⟩
  · intro hpass operation
    exact ⟨fun hrefers => noted_of_refers operation hrefers hpass, perform_gainsNone operation hpass⟩
  · intro a b r hother hthere
    refine firstWhileRelating ?_ ?_ hthere
    · simp [Graph.empty, Relates]
    · exact fun now operation hpass => (perform_gainsNone operation hpass).relation hother
  · intro id hthere
    refine firstWhileRelating ?_ ?_ hthere
    · simp [Graph.empty, isSingleton, node?, Arena.get?]
    · exact fun now operation hpass => (perform_gainsNone operation hpass).mark

end Graph

end ClassAtlas
