import ClassAtlas.Proofs.Runs
import ClassAtlas.Proofs.StyleRules

/-!
# Installing rules

Rules are installed in two phases: all of them are checked, then they are added one after the other.
The second phase stops at the first rule that is refused and takes nothing back. It still adds all
rules or none, since a graph refuses every rule or none: whether it does was settled when the first
pass began, and no operation changes that or the rules any more (`install_all_or_nothing`).

The first phase stops at the first rule that cannot be built. Rules are counted from one in each of
the two lists, and the ignore rules are checked before the style rules.
-/

namespace ClassAtlas

/-! ## One matcher -/

namespace MatcherSpec

variable {reader : PatternReader} {spec : MatcherSpec} {rule : String}

/-- How many of the three parts are given. -/
def partCount (spec : MatcherSpec) : Nat :=
  [spec.path.isSome, spec.pattern.isSome, spec.predicate.isSome].count true

/-- Exactly one part is given, and if that is a pattern, it can be read. -/
structure Valid (reader : PatternReader) (spec : MatcherSpec) : Prop where
  single : spec.partCount = 1
  readable : ∀ source, spec.pattern = some source → reader source ≠ none

/-- The matcher that is written. -/
inductive Means (reader : PatternReader) : MatcherSpec → Matcher → Prop
  | path (text : String) : Means reader { path := some text } (.path (Path.parse text))
  | pattern {source : String} {occurs : String → Bool} : reader source = some occurs →
      Means reader { pattern := some source } (.pattern source occurs)
  | predicate (spec : PredicateSpec) : Means reader { predicate := some spec } (.predicate spec.holds)

/-- What is wrong with a matcher under the name of its rule: the number of its parts, else the
pattern. -/
inductive Fault (reader : PatternReader) (spec : MatcherSpec) (rule : String) : RuleError → Prop
  | arity : spec.partCount ≠ 1 → Fault reader spec rule (.arity rule spec.given)
  | pattern {source : String} : spec.partCount = 1 → spec.pattern = some source →
      reader source = none → Fault reader spec rule (.invalidPattern rule source)

theorem Fault.not_valid {e : RuleError} (fault : Fault reader spec rule e) : ¬ spec.Valid reader := by
  intro valid
  cases fault with
  | arity hcount => exact hcount valid.single
  | pattern _ hpattern hnone => exact valid.readable _ hpattern hnone

/-- An error names the rule that it is about. -/
theorem Fault.rule? {e : RuleError} (fault : Fault reader spec rule e) : e.rule? = some rule := by
  cases fault <;> rfl

/-- A matcher is built if it is valid, and refused for what is wrong with it if not. -/
theorem build_cases (reader : PatternReader) (spec : MatcherSpec) (rule : String) :
    (spec.Valid reader ∧ ∃ matcher, spec.build reader rule = .ok matcher ∧ spec.Means reader matcher) ∨
      ∃ e, spec.build reader rule = .error e ∧ Fault reader spec rule e := by
  obtain ⟨_ | path, _ | source, _ | predicate⟩ := spec
  case none.some.none =>
    cases hread : reader source with
    | none => exact .inr ⟨_, by simp [build, hread], .pattern rfl rfl hread⟩
    | some occurs =>
      have hvalid : Valid reader { pattern := some source } :=
        ⟨rfl, fun _ h => by simp_all⟩
      exact .inl ⟨hvalid, _, by simp [build, hread], .pattern hread⟩
  case some.none.none => exact .inl ⟨⟨rfl, fun _ h => by cases h⟩, _, rfl, .path path⟩
  case none.none.some => exact .inl ⟨⟨rfl, fun _ h => by cases h⟩, _, rfl, .predicate predicate⟩
  all_goals exact .inr ⟨_, rfl, .arity (by simp [partCount])⟩

theorem build_eq_error_iff {e : RuleError} :
    spec.build reader rule = .error e ↔ Fault reader spec rule e := by
  constructor
  · intro h
    rcases spec.build_cases reader rule with ⟨_, matcher, hok, _⟩ | ⟨found, herror, hfault⟩
    · rw [hok] at h
      cases h
    · rw [herror] at h
      cases h
      exact hfault
  · intro hfault
    rcases spec.build_cases reader rule with ⟨hvalid, _⟩ | ⟨found, herror, hfound⟩
    · exact absurd hvalid hfault.not_valid
    · rw [herror]
      cases hfault <;> cases hfound <;> simp_all

theorem valid_of_build {matcher : Matcher} (h : spec.build reader rule = .ok matcher) :
    spec.Valid reader ∧ spec.Means reader matcher := by
  rcases spec.build_cases reader rule with ⟨hvalid, found, hok, hmeans⟩ | ⟨e, herror, _⟩
  · rw [hok] at h
    cases h
    exact ⟨hvalid, hmeans⟩
  · rw [herror] at h
    cases h

end MatcherSpec

/-! ## All rules -/

/-- The two lists of rules. -/
inductive RuleKind where
  | ignore
  | style
deriving DecidableEq, Repr

namespace RuleKind

/-- The word for a rule in errors. -/
def word : RuleKind → String
  | .ignore => "ignore"
  | .style => "style"

/-- The name of the rule with this number in its list. -/
def nameOf (kind : RuleKind) (number : Nat) : String :=
  kind.word ++ " #" ++ toString number

end RuleKind

/-- The style rule that is written. -/
def StyleSpec.Means (reader : PatternReader) (spec : StyleSpec) (rule : Matcher × Style) : Prop :=
  spec.matcher.Means reader rule.1 ∧ rule.2 = spec.attributes

namespace RuleSet

/-- The matchers of one of the two lists, as written. -/
def specs (rules : RuleSet) : RuleKind → List MatcherSpec
  | .ignore => rules.ignore
  | .style => rules.style.map (fun spec => spec.matcher)

/-- All matchers are valid. -/
def Valid (reader : PatternReader) (rules : RuleSet) : Prop :=
  ∀ kind, ∀ spec ∈ rules.specs kind, spec.Valid reader

/-- The first matcher of its list that is not valid, with its number, counted from one. -/
structure FaultyAt (reader : PatternReader) (rules : RuleSet) (kind : RuleKind) (number : Nat)
    (spec : MatcherSpec) : Prop where
  place : ∃ before after, rules.specs kind = before ++ spec :: after ∧ before.length + 1 = number ∧
    ∀ earlier ∈ before, earlier.Valid reader
  faulty : ¬ spec.Valid reader

/-- The first matcher of both lists that is not valid. All ignore rules come before the style rules. -/
structure FirstFaulty (reader : PatternReader) (rules : RuleSet) (kind : RuleKind) (number : Nat)
    (spec : MatcherSpec) : Prop extends FaultyAt reader rules kind number spec where
  ignored : kind = .style → ∀ earlier ∈ rules.ignore, earlier.Valid reader

variable {reader : PatternReader} {rules : RuleSet} {kind : RuleKind} {label : String} {number : Nat}
  {specs : List MatcherSpec} {e : RuleError}

/-- Building stops at the first matcher that is not valid. -/
theorem buildAll_eq_error_iff :
    buildAll reader label number specs = .error e ↔
      ∃ before spec after, specs = before ++ spec :: after ∧
        (∀ earlier ∈ before, earlier.Valid reader) ∧
        spec.Fault reader (label ++ " #" ++ toString (number + before.length)) e := by
  induction specs generalizing number with
  | nil => simp [buildAll]
  | cons first rest ih =>
    rcases first.build_cases reader (label ++ " #" ++ toString number) with
      ⟨hvalid, matcher, hok, _⟩ | ⟨found, herror, hfault⟩
    · -- the first one is built, so the error is one of the rest, which is numbered from the next
      have hrest : buildAll reader label number (first :: rest) = .error e ↔
          buildAll reader label (number + 1) rest = .error e := by
        rw [buildAll, hok]
        cases buildAll reader label (number + 1) rest <;> simp
      rw [hrest, ih]
      constructor
      · rintro ⟨before, spec, after, rfl, hbefore, hfault⟩
        refine ⟨first :: before, spec, after, rfl, List.forall_mem_cons.mpr ⟨hvalid, hbefore⟩, ?_⟩
        rw [List.length_cons, Nat.add_comm before.length 1, ← Nat.add_assoc]
        exact hfault
      · rintro ⟨_ | ⟨head, before⟩, spec, after, hsplit, hbefore, hfault⟩
        · obtain ⟨rfl, rfl⟩ := List.cons.inj hsplit
          exact absurd hvalid hfault.not_valid
        · obtain ⟨rfl, rfl⟩ := List.cons.inj hsplit
          refine ⟨before, spec, after, rfl, (List.forall_mem_cons.mp hbefore).2, ?_⟩
          rw [List.length_cons, Nat.add_comm before.length 1, ← Nat.add_assoc] at hfault
          exact hfault
    · have hfirst : buildAll reader label number (first :: rest) = .error e ↔ found = e := by
        rw [buildAll, herror]
        simp
      rw [hfirst]
      constructor
      · rintro rfl
        exact ⟨[], first, rest, rfl, by simp, hfault⟩
      · rintro ⟨_ | ⟨head, before⟩, spec, after, hsplit, hbefore, hother⟩
        · obtain ⟨rfl, rfl⟩ := List.cons.inj hsplit
          rw [← MatcherSpec.build_eq_error_iff, List.length_nil, Nat.add_zero, herror] at hother
          exact Except.error.inj hother
        · obtain ⟨rfl, rfl⟩ := List.cons.inj hsplit
          exact absurd (List.forall_mem_cons.mp hbefore).1 hfault.not_valid

theorem exists_buildAll_iff (reader : PatternReader) (label : String) (number : Nat)
    (specs : List MatcherSpec) :
    (∃ matchers, buildAll reader label number specs = .ok matchers) ↔
      ∀ spec ∈ specs, spec.Valid reader := by
  constructor
  · rintro ⟨matchers, hok⟩
    have hbuilt := forall₂_buildAll hok
    clear hok
    induction hbuilt with
    | nil => simp
    | cons hbuild _ ih =>
      obtain ⟨_, hbuild⟩ := hbuild
      exact List.forall_mem_cons.mpr ⟨(MatcherSpec.valid_of_build hbuild).1, ih⟩
  · intro hvalid
    cases hbuild : buildAll reader label number specs with
    | ok matchers => exact ⟨matchers, rfl⟩
    | error e =>
      obtain ⟨before, spec, after, rfl, _, hfault⟩ := buildAll_eq_error_iff.mp hbuild
      exact absurd (hvalid spec (by simp)) hfault.not_valid

theorem buildAll_specs_eq_error_iff (reader : PatternReader) (rules : RuleSet) (kind : RuleKind) :
    buildAll reader kind.word 1 (rules.specs kind) = .error e ↔
      ∃ number spec, rules.FaultyAt reader kind number spec ∧
        spec.Fault reader (kind.nameOf number) e := by
  rw [buildAll_eq_error_iff]
  constructor
  · rintro ⟨before, spec, after, hsplit, hbefore, hfault⟩
    rw [Nat.add_comm] at hfault
    exact ⟨_, spec, ⟨⟨before, after, hsplit, rfl, hbefore⟩, hfault.not_valid⟩, hfault⟩
  · rintro ⟨_, spec, ⟨⟨before, after, hsplit, rfl, hbefore⟩, _⟩, hfault⟩
    refine ⟨before, spec, after, hsplit, hbefore, ?_⟩
    rw [Nat.add_comm]
    exact hfault

/-- Checking the rules fails with what is wrong with the first matcher that is not valid. -/
theorem build_eq_error_iff :
    rules.build reader = .error e ↔
      ∃ kind number spec, rules.FirstFaulty reader kind number spec ∧
        spec.Fault reader (kind.nameOf number) e := by
  have hlist := rules.buildAll_specs_eq_error_iff reader (e := e)
  have hvalid := exists_buildAll_iff reader "ignore" 1 rules.ignore
  unfold build
  constructor
  · intro h
    split at h
    · rename_i hignore
      cases h
      obtain ⟨number, spec, hat, hfault⟩ := (hlist .ignore).mp hignore
      exact ⟨.ignore, number, spec, ⟨hat, fun h => by cases h⟩, hfault⟩
    · rename_i ignored hignore
      split at h
      · rename_i hstyle
        cases h
        obtain ⟨number, spec, hat, hfault⟩ := (hlist .style).mp hstyle
        exact ⟨.style, number, spec, ⟨hat, fun _ => hvalid.mp ⟨ignored, hignore⟩⟩, hfault⟩
      · cases h
  · rintro ⟨kind, number, spec, hfirst, hfault⟩
    have herror := (hlist kind).mpr ⟨number, spec, hfirst.toFaultyAt, hfault⟩
    cases kind with
    | ignore =>
      change buildAll reader "ignore" 1 rules.ignore = .error e at herror
      rw [herror]
    | style =>
      change buildAll reader "style" 1 (rules.style.map (fun spec => spec.matcher)) = .error e at herror
      obtain ⟨ignored, hignore⟩ := hvalid.mpr (hfirst.ignored rfl)
      rw [hignore, herror]

/-- Rules that pass the check are valid and mean what is written, in their order. -/
theorem valid_of_build {ignored : List Matcher} {styles : List (Matcher × Style)}
    (h : rules.build reader = .ok (ignored, styles)) :
    rules.Valid reader ∧ List.Forall₂ (MatcherSpec.Means reader) rules.ignore ignored ∧
      List.Forall₂ (StyleSpec.Means reader) rules.style styles := by
  unfold build at h
  split at h
  · cases h
  · rename_i hignore
    split at h
    · cases h
    · rename_i matchers hstyle
      cases h
      refine ⟨?_, ?_, ?_⟩
      · intro kind
        cases kind with
        | ignore => exact (exists_buildAll_iff reader "ignore" 1 _).mp ⟨_, hignore⟩
        | style => exact (exists_buildAll_iff reader "style" 1 _).mp ⟨_, hstyle⟩
      · refine (forall₂_buildAll hignore).imp ?_
        rintro spec matcher ⟨_, hbuild⟩
        exact (MatcherSpec.valid_of_build hbuild).2
      · refine (forall₂_zip (forall₂_buildAll hstyle)).imp ?_
        rintro spec rule ⟨⟨_, hbuild⟩, hattributes⟩
        exact ⟨(MatcherSpec.valid_of_build hbuild).2, hattributes⟩

theorem exists_build_iff : (∃ built, rules.build reader = .ok built) ↔ rules.Valid reader := by
  constructor
  · rintro ⟨⟨ignored, styles⟩, hok⟩
    exact (valid_of_build hok).1
  · intro hvalid
    cases hbuild : rules.build reader with
    | ok built => exact ⟨built, rfl⟩
    | error e =>
      obtain ⟨kind, number, spec, hfirst, _⟩ := build_eq_error_iff.mp hbuild
      obtain ⟨before, after, hsplit, _⟩ := hfirst.place
      exact absurd (hvalid kind spec (hsplit ▸ by simp)) hfirst.faulty

end RuleSet

namespace Graph

variable {reader : PatternReader} {g h : Graph} {rules : RuleSet} {ignored : List Matcher}
  {styles : List (Matcher × Style)}

/-! ## Adding rules -/

theorem ignore_of_editable (editable : g.rulesFrozen = false) (matcher : Matcher) :
    g.ignore matcher = .ok { g with excludeRules := g.excludeRules ++ [matcher] } := by
  simp [ignore, editable]

theorem ignore_of_frozen (frozen : g.rulesFrozen = true) (matcher : Matcher) :
    g.ignore matcher = .error .frozen := by
  simp [ignore, frozen]

theorem style_of_editable (editable : g.rulesFrozen = false) (matcher : Matcher) (attributes : Style) :
    g.style matcher attributes =
      .ok { g with styleRules := g.styleRules ++ [(matcher, attributes)] } := by
  simp [style, editable]

theorem style_of_frozen (frozen : g.rulesFrozen = true) (matcher : Matcher) (attributes : Style) :
    g.style matcher attributes = .error .frozen := by
  simp [style, frozen]

theorem ignoreAll_of_editable (matchers : List Matcher) (g : Graph) (editable : g.rulesFrozen = false) :
    g.ignoreAll matchers = (.ok (), { g with excludeRules := g.excludeRules ++ matchers }) := by
  induction matchers generalizing g with
  | nil => simp [ignoreAll]
  | cons matcher rest ih =>
    simp only [ignoreAll, ignore_of_editable editable]
    refine (ih _ ?_).trans ?_
    · exact editable
    · rw [List.append_assoc, List.singleton_append]

theorem styleAll_of_editable (rules : List (Matcher × Style)) (g : Graph)
    (editable : g.rulesFrozen = false) :
    g.styleAll rules = (.ok (), { g with styleRules := g.styleRules ++ rules }) := by
  induction rules generalizing g with
  | nil => simp [styleAll]
  | cons rule rest ih =>
    simp only [styleAll, style_of_editable editable]
    refine (ih _ ?_).trans ?_
    · exact editable
    · rw [List.append_assoc, List.singleton_append]

theorem ignoreAll_of_frozen (frozen : g.rulesFrozen = true) (matchers : List Matcher) :
    g.ignoreAll matchers = (if matchers = [] then .ok () else .error .frozen, g) := by
  cases matchers with
  | nil => rfl
  | cons matcher rest => simp [ignoreAll, ignore_of_frozen frozen]

theorem styleAll_of_frozen (frozen : g.rulesFrozen = true) (rules : List (Matcher × Style)) :
    g.styleAll rules = (if rules = [] then .ok () else .error .frozen, g) := by
  cases rules with
  | nil => rfl
  | cons rule rest => simp [styleAll, style_of_frozen frozen]

theorem install_of_error {e : RuleError} (h : rules.build reader = .error e) :
    g.install reader rules = (.error e, g) := by
  simp only [install, h]

theorem install_of_editable (editable : g.rulesFrozen = false)
    (h : rules.build reader = .ok (ignored, styles)) :
    g.install reader rules = (.ok (), { g with
      excludeRules := g.excludeRules ++ ignored
      styleRules := g.styleRules ++ styles }) := by
  simp only [install, h, ignoreAll_of_editable ignored g editable]
  exact styleAll_of_editable styles _ editable

theorem install_of_frozen (frozen : g.rulesFrozen = true)
    (h : rules.build reader = .ok (ignored, styles)) :
    g.install reader rules = (if ignored = [] ∧ styles = [] then .ok () else .error .frozen, g) := by
  simp only [install, h, ignoreAll_of_frozen frozen]
  by_cases hnone : ignored = []
  · simp [hnone, styleAll_of_frozen frozen]
  · simp [hnone]

/-! ## Rules and operations -/

/-- The rules are the same, and so is whether they are fixed. -/
structure SameRules (g h : Graph) : Prop where
  excludeRules : h.excludeRules = g.excludeRules
  styleRules : h.styleRules = g.styleRules
  rulesFrozen : h.rulesFrozen = g.rulesFrozen

namespace SameRules

theorem refl (g : Graph) : SameRules g g := ⟨rfl, rfl, rfl⟩

theorem trans {k : Graph} (first : SameRules g h) (second : SameRules h k) : SameRules g k :=
  ⟨second.excludeRules.trans first.excludeRules, second.styleRules.trans first.styleRules,
    second.rulesFrozen.trans first.rulesFrozen⟩

theorem of_noted (noted : Noted g h) : SameRules g h := by
  rw [noted]
  exact ⟨rfl, rfl, rfl⟩

theorem enter {inner : Graph} {kind : Kind} {name : Reference} {path : Path}
    (hopen : g.enter kind name = some (path, inner)) : SameRules g inner := by
  obtain ⟨outer, _, rfl⟩ := enter_eq_some hopen
  have hfound : SameRules g (g.findOrAdd path kind).2 := by
    rcases g.findOrAdd_cases path kind with ⟨_, hnoted⟩ | ⟨_, _, hadded⟩
    · exact .of_noted hnoted
    · rw [hadded]
      exact ⟨rfl, rfl, rfl⟩
  refine hfound.trans ?_
  unfold opened declared
  rw [contain_eq, trackProvisional_rest]
  exact ⟨rfl, rfl, rfl⟩

theorem inherit (g : Graph) (superclass : Reference) : SameRules g (g.inherit superclass).2 := by
  rcases g.inherit_cases superclass with ⟨cls, target, _, heq⟩ | ⟨_, hnoted, _⟩
  · rw [heq]
    exact ⟨rfl, rfl, rfl⟩
  · exact .of_noted hnoted

theorem mix (g : Graph) (mixin : Mixin) (target : Reference) : SameRules g (g.mix mixin target).2 := by
  rcases g.mix_cases mixin target with ⟨owner, found, _, heq⟩ | ⟨owner, _, _, _, _, heq⟩ |
    ⟨_, hnoted, _⟩
  · rw [heq]
    exact ⟨rfl, rfl, rfl⟩
  · rw [heq]
    rcases g.markSingleton_cases owner with ⟨_, hmark⟩ | ⟨_, hnoted⟩
    · show SameRules g (g.markSingleton owner)
      rw [hmark]
      exact ⟨rfl, rfl, rfl⟩
    · exact .of_noted hnoted
  · exact .of_noted hnoted

theorem relocate (g : Graph) (relocation : NodeId × Path) : SameRules g (g.relocate relocation) := by
  obtain ⟨stale, path⟩ := relocation
  rcases g.relocate_cases stale path with ⟨_, heq⟩ | ⟨_, _, heq⟩ | ⟨_, _, heq⟩
  · rw [heq]
    exact .refl g
  · rw [heq]
    exact ⟨rfl, rfl, rfl⟩
  · rw [heq]
    cases hfold : foldInto g.nodeCount (g.foldStart stale path) stale path with
    | none => exact ⟨rfl, rfl, rfl⟩
    | some after =>
      obtain ⟨net, journal, rfl⟩ := foldInto_rest _ _ after stale path hfold
      exact ⟨rfl, rfl, rfl⟩

theorem endPass (g : Graph) : SameRules g g.endPass := by
  have hclosed : SameRules g g.closed := by
    rw [closed_eq]
    exact ⟨rfl, rfl, rfl⟩
  have hfolds : ∀ (relocations : List (NodeId × Path)) (now : Graph),
      SameRules now (relocations.foldl Graph.relocate now) := by
    intro relocations
    induction relocations with
    | nil => exact fun now => .refl now
    | cons first rest ih => exact fun now => (SameRules.relocate now first).trans (ih _)
  rw [endPass_eq]
  split
  · have hfolded := hfolds g.relocations { g.closed with relocations := [] }
    exact hclosed.trans ⟨hfolded.excludeRules, hfolded.styleRules, hfolded.rulesFrozen⟩
  · exact hclosed.trans ⟨rfl, rfl, rfl⟩

theorem applyStyles (g : Graph) : SameRules g g.applyStyles := by
  unfold Graph.applyStyles
  split <;> exact ⟨rfl, rfl, rfl⟩

theorem drop (now : Graph) (id : NodeId) (same : SameRules g now) : SameRules g (now.drop id) :=
  same.trans ⟨rfl, rfl, rfl⟩

theorem prune (g : Graph) : SameRules g g.prune.2 :=
  foldl_drop_keeps SameRules.drop g.prunees g (.refl g)

theorem pruneAll (g : Graph) : SameRules g g.pruneAll.2 :=
  pruneRounds_keeps SameRules.drop (fun now event same => same.trans (.of_noted (noted_note now event)))
    g.nodeCount 1 g (.refl g)

end SameRules

/-- What an operation can do to the rules: it leaves them as they are, or it begins a pass, or they are
not fixed, neither before nor after. -/
theorem perform_rules (g : Graph) (operation : Operation) :
    SameRules g (g.perform operation) ∨ (∃ pass, operation = .beginPass pass) ∨
      (g.rulesFrozen = false ∧ (g.perform operation).rulesFrozen = false) := by
  cases operation with
  | ignore matcher =>
    cases hrules : g.rulesFrozen with
    | true =>
      simp only [perform, ignore_of_frozen hrules]
      exact .inl (.refl g)
    | false =>
      simp only [perform, ignore_of_editable hrules]
      exact .inr (.inr ⟨trivial, hrules⟩)
  | style matcher attributes =>
    cases hrules : g.rulesFrozen with
    | true =>
      simp only [perform, style_of_frozen hrules]
      exact .inl (.refl g)
    | false =>
      simp only [perform, style_of_editable hrules]
      exact .inr (.inr ⟨trivial, hrules⟩)
  | install reader rules =>
    cases hbuild : rules.build reader with
    | error e =>
      simp only [perform, install_of_error hbuild]
      exact .inl (.refl g)
    | ok built =>
      cases hrules : g.rulesFrozen with
      | true =>
        simp only [perform, install_of_frozen hrules hbuild]
        exact .inl (.refl g)
      | false =>
        simp only [perform, install_of_editable hrules hbuild]
        exact .inr (.inr ⟨trivial, hrules⟩)
  | beginPass pass => exact .inr (.inl ⟨pass, rfl⟩)
  | endPass => exact .inl (.endPass g)
  | enter kind name =>
    left
    cases hopen : g.enter kind name with
    | none =>
      simp only [perform, hopen]
      exact .refl g
    | some entered =>
      simp only [perform, hopen]
      exact .enter hopen
  | leave => exact .inl ⟨rfl, rfl, rfl⟩
  | inherit superclass => exact .inl (.inherit g superclass)
  | mix mixin target => exact .inl (.mix g mixin target)
  | resolve name origin => exact .inl (.refl g)
  | applyStyles => exact .inl (.applyStyles g)
  | prune => exact .inl (.prune g)
  | pruneAll => exact .inl (.pruneAll g)

/-- Rules that are fixed stay as they are, whatever is done. -/
theorem sameRules_performAll (frozen : g.rulesFrozen = true) (operations : List Operation) :
    SameRules g (g.performAll operations) := by
  refine performAll_keeps (Q := fun now => SameRules g now) (fun now operation same => ?_) operations
    (.refl g)
  rcases now.perform_rules operation with hsame | ⟨pass, rfl⟩ | ⟨heditable, _⟩
  · exact same.trans hsame
  · refine same.trans ⟨rfl, rfl, ?_⟩
    rw [same.rulesFrozen, frozen]
    rfl
  · rw [same.rulesFrozen, frozen] at heditable
    cases heditable

theorem rulesFrozen_perform_iff (g : Graph) (operation : Operation) :
    (g.perform operation).rulesFrozen = true ↔
      g.rulesFrozen = true ∨ ∃ pass, operation = .beginPass pass := by
  rcases g.perform_rules operation with hsame | ⟨pass, rfl⟩ | ⟨hbefore, hafter⟩
  · rw [hsame.rulesFrozen]
    refine ⟨.inl, ?_⟩
    rintro (hfrozen | ⟨pass, rfl⟩)
    · exact hfrozen
    · exact hsame.rulesFrozen.symm
  · exact ⟨fun _ => .inr ⟨pass, rfl⟩, fun _ => rfl⟩
  · rw [hbefore, hafter]
    refine ⟨.inl, ?_⟩
    rintro (hfrozen | ⟨pass, rfl⟩)
    · exact hfrozen
    · exact hafter.symm

/-- The rules are fixed if and only if a pass has begun. -/
theorem rulesFrozen_afterRun_iff (run : List Operation) :
    (afterRun run).rulesFrozen = true ↔ ∃ pass, .beginPass pass ∈ run := by
  induction run using List.reverseRecOn with
  | nil => simp [afterRun, performAll, Graph.empty]
  | append_singleton run operation ih =>
    rw [afterRun_concat, rulesFrozen_perform_iff, ih]
    simp only [List.mem_append, List.mem_singleton, exists_or, eq_comm]

/-- Rules without a matcher are none. -/
theorem built_nil_iff (h : rules.build reader = .ok (ignored, styles)) :
    ignored = [] ∧ styles = [] ↔ rules = {} := by
  obtain ⟨_, hignored, hstyles⟩ := RuleSet.valid_of_build h
  have hignore : rules.ignore = [] ↔ ignored = [] := by
    rw [← List.length_eq_zero_iff, ← List.length_eq_zero_iff, hignored.length_eq]
  have hstyle : rules.style = [] ↔ styles = [] := by
    rw [← List.length_eq_zero_iff, ← List.length_eq_zero_iff, hstyles.length_eq]
  rw [← hignore, ← hstyle]
  obtain ⟨ignore, style⟩ := rules
  simp

/-- All that installing rules can do: it reports a rule that is not valid, it adds all rules, or it
reports that rules are fixed. Only the second changes the graph. -/
theorem install_cases (g : Graph) (reader : PatternReader) (rules : RuleSet) :
    (∃ e, rules.build reader = .error e ∧ g.install reader rules = (.error e, g)) ∨
    (∃ ignored styles, rules.build reader = .ok (ignored, styles) ∧
      (g.rulesFrozen = false ∨ rules = {}) ∧
      g.install reader rules = (.ok (), { g with
        excludeRules := g.excludeRules ++ ignored
        styleRules := g.styleRules ++ styles })) ∨
    (rules.Valid reader ∧ g.rulesFrozen = true ∧ rules ≠ {} ∧
      g.install reader rules = (.error .frozen, g)) := by
  cases hbuild : rules.build reader with
  | error e => exact .inl ⟨e, rfl, install_of_error hbuild⟩
  | ok built =>
    obtain ⟨ignored, styles⟩ := built
    rcases Bool.eq_false_or_eq_true g.rulesFrozen with hrules | hrules
    · have hinstall := install_of_frozen hrules hbuild
      by_cases hnone : rules = {}
      · -- a graph that refuses every rule still takes none
        obtain ⟨rfl, rfl⟩ := (built_nil_iff hbuild).mpr hnone
        refine .inr (.inl ⟨[], [], rfl, .inr hnone, ?_⟩)
        simpa using hinstall
      · rw [if_neg (mt (built_nil_iff hbuild).mp hnone)] at hinstall
        exact .inr (.inr ⟨(RuleSet.valid_of_build hbuild).1, hrules, hnone, hinstall⟩)
    · exact .inr (.inl ⟨ignored, styles, rfl, .inl hrules, install_of_editable hrules hbuild⟩)

theorem install_ok_iff (g : Graph) (reader : PatternReader) (rules : RuleSet) :
    (g.install reader rules).1 = .ok () ↔
      rules.Valid reader ∧ (g.rulesFrozen = false ∨ rules = {}) := by
  rcases g.install_cases reader rules with
    ⟨e, hbuild, heq⟩ | ⟨_, _, hbuild, hfree, heq⟩ | ⟨_, hrules, hsome, heq⟩
  · rw [heq, ← RuleSet.exists_build_iff, hbuild]
    simp
  · rw [heq]
    exact iff_of_true rfl ⟨(RuleSet.valid_of_build hbuild).1, hfree⟩
  · rw [heq]
    simp [hrules, hsome]

theorem install_error_iff (g : Graph) (reader : PatternReader) (rules : RuleSet) (e : RuleError) :
    (g.install reader rules).1 = .error e ↔
      (∃ kind number spec, rules.FirstFaulty reader kind number spec ∧
        spec.Fault reader (kind.nameOf number) e) ∨
        (e = .frozen ∧ rules.Valid reader ∧ rules ≠ {} ∧ g.rulesFrozen = true) := by
  rw [← RuleSet.build_eq_error_iff, ← RuleSet.exists_build_iff]
  rcases g.install_cases reader rules with
    ⟨found, hbuild, heq⟩ | ⟨_, _, hbuild, hfree, heq⟩ | ⟨hvalid, hrules, hsome, heq⟩
  · rw [heq, hbuild]
    simp
  · rw [heq, hbuild]
    rcases hfree with hrules | hnone
    · simp [hrules]
    · simp [hnone]
  · obtain ⟨built, hbuild⟩ := RuleSet.exists_build_iff.mpr hvalid
    rw [heq, hbuild]
    simp [hrules, hsome, eq_comm]

/-- **Rules are installed all or none, and are fixed for good when a pass begins.** After any run,
installing succeeds if and only if every matcher is valid and no pass has begun, or there is no rule to
install. Then the rules that are written come behind those that were there. Else the graph is as it was,
and the error is that of the first matcher that is not valid, or, if all are valid, that rules are
fixed. Once a pass has begun, no operations change the rules. -/
theorem install_all_or_nothing (reader : PatternReader) (run : List Operation) (rules : RuleSet) :
    (∃ outcome after, (afterRun run).install reader rules = (outcome, after) ∧
      (outcome = .ok () ↔ rules.Valid reader ∧ ((∀ pass, .beginPass pass ∉ run) ∨ rules = {})) ∧
      (outcome = .ok () → ∃ ignored styles,
        List.Forall₂ (MatcherSpec.Means reader) rules.ignore ignored ∧
        List.Forall₂ (StyleSpec.Means reader) rules.style styles ∧
        after = { afterRun run with
          excludeRules := (afterRun run).excludeRules ++ ignored
          styleRules := (afterRun run).styleRules ++ styles }) ∧
      (∀ e, outcome = .error e → after = afterRun run) ∧
      ∀ e, outcome = .error e ↔
        (∃ kind number spec, rules.FirstFaulty reader kind number spec ∧
          spec.Fault reader (kind.nameOf number) e) ∨
          (e = .frozen ∧ rules.Valid reader ∧ rules ≠ {} ∧ ∃ pass, .beginPass pass ∈ run)) ∧
    ((∃ pass, .beginPass pass ∈ run) → ∀ later,
      (afterRun (run ++ later)).excludeRules = (afterRun run).excludeRules ∧
      (afterRun (run ++ later)).styleRules = (afterRun run).styleRules) := by
  have hfrozen := rulesFrozen_afterRun_iff run
  have hfree : (afterRun run).rulesFrozen = false ↔ ∀ pass, .beginPass pass ∉ run := by
    rw [← Bool.not_eq_true, hfrozen, not_exists]
  refine ⟨⟨((afterRun run).install reader rules).1, ((afterRun run).install reader rules).2, rfl, ?_,
    ?_, ?_, ?_⟩, ?_⟩
  · rw [install_ok_iff, hfree]
  · intro hok
    rcases (afterRun run).install_cases reader rules with
      ⟨_, _, heq⟩ | ⟨ignored, styles, hbuild, _, heq⟩ | ⟨_, _, _, heq⟩
    · rw [heq] at hok
      cases hok
    · obtain ⟨_, hignored, hstyles⟩ := RuleSet.valid_of_build hbuild
      exact ⟨ignored, styles, hignored, hstyles, by rw [heq]⟩
    · rw [heq] at hok
      cases hok
  · intro e herror
    rcases (afterRun run).install_cases reader rules with
      ⟨_, _, heq⟩ | ⟨_, _, _, _, heq⟩ | ⟨_, _, _, heq⟩
    · rw [heq]
    · rw [heq] at herror
      cases herror
    · rw [heq]
  · intro e
    rw [install_error_iff, hfrozen]
  · intro hbegun later
    have hsame := sameRules_performAll (hfrozen.mpr hbegun) later
    rw [afterRun_append]
    exact ⟨hsame.excludeRules, hsame.styleRules⟩

end Graph

end ClassAtlas
