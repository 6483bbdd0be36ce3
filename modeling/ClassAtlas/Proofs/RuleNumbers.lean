import ClassAtlas.Build
import ClassAtlas.Proofs.Installation

/-!
# The numbers of configured rules

An error about a rule gives its number among the rules that are installed. Built-in styles are installed
before those of the settings and are counted with them, so a style of the settings keeps its own number
only if the built-in ones are switched off; ignore rules always do (`entry_named_iff`).
-/

namespace ClassAtlas

/-- Rules of one list have different names. -/
theorem RuleKind.nameOf_inj (kind : RuleKind) {m n : Nat} : kind.nameOf m = kind.nameOf n ↔ m = n := by
  refine ⟨fun h => ?_, congrArg kind.nameOf⟩
  simp only [nameOf, Nat.toString_eq_ofList_toDigits, String.append_right_inj] at h
  -- a number is read back from its digits
  rw [← Nat.ofDigitChars_ten_toDigits (n := m), String.ofList_injective h,
    Nat.ofDigitChars_ten_toDigits]

theorem MatcherSpec.Fault.ne_frozen {reader : PatternReader} {spec : MatcherSpec} {rule : String}
    {e : RuleError} (fault : spec.Fault reader rule e) : e ≠ .frozen := by
  cases fault <;> simp

theorem MatcherSpec.exists_fault {reader : PatternReader} {spec : MatcherSpec}
    (faulty : ¬ spec.Valid reader) (rule : String) : ∃ e, spec.Fault reader rule e := by
  rcases spec.build_cases reader rule with ⟨hvalid, _⟩ | ⟨e, _, hfault⟩
  · exact absurd hvalid faulty
  · exact ⟨e, hfault⟩

namespace Settings

variable {reader : PatternReader} {s : Settings} {kind : RuleKind} {number : Nat} {spec : MatcherSpec}

/-- The matchers that are installed before those of the settings. -/
def builtIn (s : Settings) : RuleKind → List MatcherSpec
  | .ignore => []
  | .style => if s.defaultStyles then RuleSet.defaultStyles.map (fun spec => spec.matcher) else []

/-- The number that an entry of the settings has among the rules that are installed. -/
def installedNumber (s : Settings) (kind : RuleKind) (number : Nat) : Nat :=
  (s.builtIn kind).length + number

theorem valid_of_builtIn (h : spec ∈ s.builtIn kind) : spec.Valid reader := by
  cases kind with
  | ignore => cases h
  | style =>
    cases hon : s.defaultStyles with
    | false => simp [builtIn, hon] at h
    | true =>
      simp only [builtIn, hon, if_true, RuleSet.defaultStyles, List.map_cons, List.map_nil,
        List.mem_cons, List.not_mem_nil, or_false] at h
      rcases h with rfl | rfl <;> exact ⟨rfl, fun _ h => by cases h⟩

theorem specs_ruleSet (s : Settings) (kind : RuleKind) :
    s.ruleSet.specs kind = s.builtIn kind ++ s.rules.specs kind := by
  unfold ruleSet builtIn
  cases kind <;> cases s.defaultStyles <;> simp [RuleSet.specs]

/-- Built-in rules are valid, so the first matcher of a list that is not valid is one of the
settings. -/
theorem faultyAt_ruleSet :
    s.ruleSet.FaultyAt reader kind number spec ↔
      ∃ entry, number = s.installedNumber kind entry ∧ s.rules.FaultyAt reader kind entry spec := by
  constructor
  · rintro ⟨⟨before, after, hsplit, rfl, hbefore⟩, hfaulty⟩
    rw [specs_ruleSet] at hsplit
    -- the built-in rules end before the faulty one
    have hpast : ∃ own, before = s.builtIn kind ++ own ∧ s.rules.specs kind = own ++ spec :: after := by
      rcases List.append_eq_append_iff.mp hsplit with ⟨own, hown, hrest⟩ | ⟨own, hown, hrest⟩
      · exact ⟨own, hown, hrest⟩
      · cases own with
        | nil => exact ⟨[], by simpa using hown.symm, by simpa using hrest.symm⟩
        | cons first rest =>
          obtain ⟨rfl, _⟩ := List.cons.inj hrest
          have hmem : spec ∈ s.builtIn kind := by
            rw [hown]
            simp
          exact absurd (valid_of_builtIn hmem) hfaulty
    obtain ⟨own, rfl, hown⟩ := hpast
    refine ⟨own.length + 1, ?_, ⟨own, after, hown, rfl, fun earlier hmem => ?_⟩, hfaulty⟩
    · rw [List.length_append, installedNumber, Nat.add_assoc]
    · exact hbefore earlier (List.mem_append_right _ hmem)
  · rintro ⟨_, rfl, ⟨before, after, hsplit, rfl, hbefore⟩, hfaulty⟩
    refine ⟨⟨s.builtIn kind ++ before, after, ?_, ?_, fun earlier hmem => ?_⟩, hfaulty⟩
    · rw [specs_ruleSet, hsplit, List.append_assoc]
    · rw [List.length_append, installedNumber, Nat.add_assoc]
    · rcases List.mem_append.mp hmem with hbuiltIn | hown
      · exact valid_of_builtIn hbuiltIn
      · exact hbefore earlier hown

theorem firstFaulty_ruleSet :
    s.ruleSet.FirstFaulty reader kind number spec ↔
      ∃ entry, number = s.installedNumber kind entry ∧ s.rules.FirstFaulty reader kind entry spec := by
  have hignore : s.ruleSet.ignore = s.rules.ignore := s.specs_ruleSet .ignore
  constructor
  · rintro ⟨hat, hignored⟩
    obtain ⟨entry, hnumber, hentry⟩ := faultyAt_ruleSet.mp hat
    exact ⟨entry, hnumber, hentry, hignore ▸ hignored⟩
  · rintro ⟨entry, hnumber, hentry, hignored⟩
    exact ⟨faultyAt_ruleSet.mpr ⟨entry, hnumber, hentry⟩, hignore ▸ hignored⟩

theorem installedNumber_eq_iff :
    s.installedNumber kind number = number ↔ kind = .ignore ∨ s.defaultStyles = false := by
  unfold installedNumber builtIn
  cases kind <;> cases s.defaultStyles <;> simp [RuleSet.defaultStyles]

/-- Installing the rules of the settings fails, on a graph that takes rules, because of their first
entry that is not valid. -/
theorem install_error_iff (reader : PatternReader) (s : Settings) (g : Graph) (e : RuleError) :
    ((g.install reader s.ruleSet).1 = .error e ∧ e ≠ .frozen) ↔
      ∃ kind entry spec, s.rules.FirstFaulty reader kind entry spec ∧
        spec.Fault reader (kind.nameOf (s.installedNumber kind entry)) e := by
  rw [Graph.install_error_iff]
  constructor
  · rintro ⟨⟨kind, number, spec, hfirst, hfault⟩ | ⟨hfrozen, _⟩, hother⟩
    · obtain ⟨entry, rfl, hentry⟩ := firstFaulty_ruleSet.mp hfirst
      exact ⟨kind, entry, spec, hentry, hfault⟩
    · exact absurd hfrozen hother
  · rintro ⟨kind, entry, spec, hentry, hfault⟩
    exact ⟨.inl ⟨kind, _, spec, firstFaulty_ruleSet.mpr ⟨entry, rfl, hentry⟩, hfault⟩,
      hfault.ne_frozen⟩

end Settings

/-- A build stops because of a rule if and only if its rules cannot be installed. -/
theorem Build.run_eq_rule_iff (reader : PatternReader) (b : Build) (tree : FileTree) (e : RuleError) :
    b.run reader tree = .error (.rule e) ↔ (b.graph.install reader b.rules).1 = .error e := by
  have hdefine : (b.define reader b.rules).1 = (b.graph.install reader b.rules).1 := rfl
  unfold run
  split
  · rename_i found _ heq
    rw [← hdefine, heq]
    simp
  · rename_i heq
    rw [← hdefine, heq]
    -- nothing after the rules are in reports one
    refine iff_of_false ?_ (by simp)
    split
    · simp
    · split <;> simp

theorem Build.of_ofSettings {root : String} {s : Settings} {build : Build}
    (h : Build.ofSettings root s = .ok build) : build.graph = .empty ∧ build.rules = s.ruleSet := by
  unfold Build.ofSettings at h
  split at h
  · cases h
  · cases h
    exact ⟨rfl, rfl⟩

namespace Settings

/-- **Errors about configured rules.** Installing the rules of settings fails because of their first
entry that is not valid, and never because of a built-in rule; a whole build by the settings stops with
the same error. The error names that entry by its number in the settings if and only if the entry is an
ignore rule or the built-in styles are switched off. -/
theorem entry_named_iff (reader : PatternReader) (s : Settings) :
    (∀ (g : Graph) e, ((g.install reader s.ruleSet).1 = .error e ∧ e ≠ .frozen) ↔
      ∃ kind entry spec, s.rules.FirstFaulty reader kind entry spec ∧
        spec.Fault reader (kind.nameOf (s.installedNumber kind entry)) e) ∧
    ∀ kind entry spec, s.rules.FirstFaulty reader kind entry spec → ∃ e,
      (∀ g : Graph, (g.install reader s.ruleSet).1 = .error e) ∧
      (∀ root build tree, Build.ofSettings root s = .ok build →
        build.run reader tree = .error (.rule e)) ∧
      e.rule? = some (kind.nameOf (s.installedNumber kind entry)) ∧
      (e.rule? = some (kind.nameOf entry) ↔ kind = .ignore ∨ s.defaultStyles = false) := by
  refine ⟨s.install_error_iff reader, fun kind entry spec hfirst => ?_⟩
  obtain ⟨e, hfault⟩ :=
    MatcherSpec.exists_fault hfirst.faulty (kind.nameOf (s.installedNumber kind entry))
  have hinstall : ∀ g : Graph, (g.install reader s.ruleSet).1 = .error e := fun g =>
    ((s.install_error_iff reader g e).mpr ⟨kind, entry, spec, hfirst, hfault⟩).1
  refine ⟨e, hinstall, fun root build tree hbuild => ?_, hfault.rule?, ?_⟩
  · obtain ⟨hgraph, hrules⟩ := Build.of_ofSettings hbuild
    rw [Build.run_eq_rule_iff, hgraph, hrules]
    exact hinstall .empty
  · rw [hfault.rule?, Option.some_inj, RuleKind.nameOf_inj, installedNumber_eq_iff]

/-- Three styles, the first without a matcher. -/
def threeStyles : Settings :=
  { rules := { style :=
      [{}, { matcher := { path := some "A" } }, { matcher := { path := some "B" } }] } }

/-- The error about the first style names the third, which is valid. -/
theorem first_style_named_third :
    threeStyles.rules.FirstFaulty Build.noPatterns .style 1 {} ∧
      MatcherSpec.Valid Build.noPatterns { path := some "B" } ∧
      (Graph.empty.install Build.noPatterns threeStyles.ruleSet).1 = .error (.arity "style #3" []) := by
  refine ⟨⟨⟨⟨[], _, rfl, rfl, by simp⟩, fun h => ?_⟩, by simp [threeStyles]⟩, ?_, rfl⟩
  · cases h.single
  · exact ⟨rfl, fun _ h => by cases h⟩

end Settings

end ClassAtlas
