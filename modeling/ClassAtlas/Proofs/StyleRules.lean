import Mathlib.Data.List.Forall2
import Mathlib.Logic.Function.Iterate
import Mathlib.Tactic.Tauto
import ClassAtlas.Build
import ClassAtlas.Proofs.BareNetworks
import ClassAtlas.Proofs.Listings
import ClassAtlas.Proofs.Pruning

/-!
# What style rules do

Styles are merged into the nodes one rule after the other while the matchers read the network that is
being changed. A matcher from settings does not look at styles, so every rule is decided as in the
network before: an attribute has the text that the last matching rule gives it, and pruning goes as it
would without styles (`styles_decided_before_pruning`).
-/

namespace ClassAtlas

/-! ## Merging styles -/

namespace Style

/-- Of attributes with distinct names, each is set to its own text. -/
theorem get?_foldl_set (entries : List (String × String)) (s : Style) (name : String)
    (ascending : entries.Pairwise (fun first second => first.1 < second.1)) :
    (entries.foldl (fun acc entry => acc.set entry.1 entry.2) s).get? name =
      (entries.lookup name).or (s.get? name) := by
  induction entries generalizing s with
  | nil => rfl
  | cons entry rest ih =>
    obtain ⟨key, text⟩ := entry
    obtain ⟨hfirst, hrest⟩ := List.pairwise_cons.mp ascending
    rw [List.foldl_cons, ih _ hrest, get?_set, Assoc.lookup_cons]
    by_cases hkey : name = key
    · -- the name does not come again
      have hnone : rest.lookup name = none := by
        rw [List.lookup_eq_none_iff]
        intro other hother
        have hlt := hfirst other hother
        rw [bne_iff_ne]
        rintro rfl
        exact String.lt_irrefl _ (hkey ▸ hlt)
      simp [hkey ▸ hnone, hkey]
    · simp [hkey]

theorem get?_merge (s t : Style) (name : String) :
    (s.merge t).get? name = (t.get? name).or (s.get? name) :=
  get?_foldl_set t.entries s name t.ascending

end Style

namespace Graph

open Network

variable {net : Network} {rules : List (Matcher × Style)} {id : NodeId} {node : Node}

/-! ## One node -/

/-- The text that the last rule with the attribute gives it, of the rules that accept the node. -/
def lastText? (net : Network) (id : NodeId) (name : String) : List (Matcher × Style) → Option String
  | [] => none
  | (matcher, attributes) :: rest =>
    (lastText? net id name rest).or (if matcher.accepts net id then attributes.get? name else none)

theorem lastText?_congr {other : Network} (same : net.bare = other.bare)
    (blind : ∀ rule ∈ rules, rule.1.Blind) (name : String) :
    lastText? net id name rules = lastText? other id name rules := by
  induction rules with
  | nil => rfl
  | cons rule rest ih =>
    simp only [lastText?]
    rw [ih fun later hlater => blind later (List.mem_cons_of_mem _ hlater),
      (blind rule List.mem_cons_self).accepts_eq same id]

theorem bare_restyled (net : Network) (id : NodeId) (attributes : Style) :
    (restyled net id attributes).bare = net.bare := by
  have hnodes := net.nodes.mapValues_modify (f := Node.bare) id
    (fun node => show Node.bare { node with style := node.style.merge attributes } = node.bare from rfl)
  simp only [restyled, modifyNode, bare, hnodes]

theorem bare_styleNode (rules : List (Matcher × Style)) (net : Network) (id : NodeId) :
    (styleNode rules net id).bare = net.bare :=
  styleNode_keeps (P := fun now => now.bare = net.bare)
    (fun now other attributes h => (bare_restyled now other attributes).trans h) rules net id rfl

theorem node?_restyled_self (hnode : net.node? id = some node) (attributes : Style) :
    (restyled net id attributes).node? id =
      some { node with style := node.style.merge attributes } := by
  rw [restyled, node?_modifyNode, if_pos rfl, hnode]
  rfl

/-- The first rule is decided first, and the others in the network that it leaves. -/
theorem styleNode_cons (matcher : Matcher) (attributes : Style) (rest : List (Matcher × Style))
    (net : Network) (id : NodeId) :
    styleNode ((matcher, attributes) :: rest) net id =
      styleNode rest (if matcher.accepts net id then restyled net id attributes else net) id := rfl

/-- A node that is styled gets the text of the last rule for every attribute that a matching rule has,
and keeps the others. -/
theorem node?_styleNode_self (blind : ∀ rule ∈ rules, rule.1.Blind) (hnode : net.node? id = some node) :
    ∃ style : Style, (styleNode rules net id).node? id = some { node with style } ∧
      ∀ name, style.get? name = (lastText? net id name rules).or (node.style.get? name) := by
  induction rules generalizing net node with
  | nil => exact ⟨node.style, hnode, fun _ => rfl⟩
  | cons rule rest ih =>
    obtain ⟨matcher, attributes⟩ := rule
    have hlater : ∀ later ∈ rest, later.1.Blind := fun later h =>
      blind later (List.mem_cons_of_mem _ h)
    rw [styleNode_cons]
    by_cases haccepts : matcher.accepts net id = true
    · rw [if_pos haccepts]
      obtain ⟨style, hstyled, htexts⟩ := ih hlater (node?_restyled_self hnode attributes)
      refine ⟨style, hstyled, fun name => ?_⟩
      rw [htexts, lastText?_congr (bare_restyled net id attributes) hlater, lastText?, if_pos haccepts,
        Option.or_assoc, Style.get?_merge]
    · rw [if_neg haccepts]
      obtain ⟨style, hstyled, htexts⟩ := ih hlater hnode
      refine ⟨style, hstyled, fun name => ?_⟩
      rw [htexts, lastText?, if_neg haccepts, Option.or_none]

theorem node?_styleNode_of_ne (rules : List (Matcher × Style)) {other : NodeId} (h : other ≠ id) :
    (styleNode rules net id).node? other = net.node? other := by
  induction rules generalizing net with
  | nil => rfl
  | cons rule rest ih =>
    rw [styleNode_cons, ih]
    split
    · rw [restyled, node?_modifyNode, if_neg h]
    · rfl

/-! ## All nodes -/

/-- The nodes are styled one after the other. A node that is listed twice has what the rules give it
after the first time. -/
theorem node?_foldl_styleNode (blind : ∀ rule ∈ rules, rule.1.Blind) (ids : List NodeId)
    (hnode : net.node? id = some node) :
    ∃ style : Style, (ids.foldl (styleNode rules) net).node? id = some { node with style } ∧
      ∀ name, style.get? name =
        if id ∈ ids then (lastText? net id name rules).or (node.style.get? name)
        else node.style.get? name := by
  induction ids generalizing net node with
  | nil => exact ⟨node.style, hnode, fun _ => rfl⟩
  | cons first rest ih =>
    rw [List.foldl_cons]
    have hsame : ∀ name, lastText? (styleNode rules net first) id name rules =
        lastText? net id name rules := fun name =>
      lastText?_congr (bare_styleNode rules net first) blind name
    by_cases hfirst : id = first
    · subst hfirst
      obtain ⟨before, hbefore, htexts⟩ := node?_styleNode_self blind hnode
      obtain ⟨style, hstyled, hlater⟩ := ih hbefore
      refine ⟨style, hstyled, fun name => ?_⟩
      rw [hlater, hsame, htexts, if_pos List.mem_cons_self]
      split
      · rw [← Option.or_assoc, Option.or_self]
      · rfl
    · rw [← node?_styleNode_of_ne rules hfirst] at hnode
      obtain ⟨style, hstyled, hlater⟩ := ih hnode
      refine ⟨style, hstyled, fun name => ?_⟩
      simp only [hlater, hsame, List.mem_cons, hfirst, false_or]

theorem bare_applyStyles (g : Graph) : g.applyStyles.net.bare = g.net.bare :=
  applyStyles_keeps (P := fun now => now.bare = g.net.bare)
    (fun now id attributes h => (bare_restyled now id attributes).trans h) rfl

/-! ## Pruning -/

variable {g h : Graph}

/-- Graphs that differ in styles alone lose the same nodes in a round. -/
theorem prune_bare (same : g.net.bare = h.net.bare) (rules : g.excludeRules = h.excludeRules)
    (blind : ∀ rule ∈ g.excludeRules, rule.Blind) :
    g.prunees = h.prunees ∧ g.prune.2.net.bare = h.prune.2.net.bare := by
  have hids : g.net.nodeIds = h.net.nodeIds := by
    rw [← nodeIds_bare g.net, same, nodeIds_bare]
  have hprunees : g.prunees = h.prunees := by
    unfold prunees
    rw [hids, ← rules]
    refine List.filter_congr fun id _ => ?_
    rw [Bool.eq_iff_iff, List.any_eq_true, List.any_eq_true]
    refine exists_congr fun rule => and_congr_right fun hrule => ?_
    rw [(blind rule hrule).accepts_eq same id]
  refine ⟨hprunees, ?_⟩
  show (g.prunees.foldl drop g).net.bare = (h.prunees.foldl drop h).net.bare
  rw [foldl_drop_net, foldl_drop_net, bare_foldl_removeNode, bare_foldl_removeNode, same, hprunees]

/-- Graphs that differ in styles alone are pruned in the same rounds. -/
theorem pruneRounds_bare (fuel round : Nat) (g h : Graph) (same : g.net.bare = h.net.bare)
    (rules : g.excludeRules = h.excludeRules) (blind : ∀ rule ∈ g.excludeRules, rule.Blind) :
    (pruneRounds fuel round g).1 = (pruneRounds fuel round h).1 ∧
      (pruneRounds fuel round g).2.net.bare = (pruneRounds fuel round h).2.net.bare := by
  induction fuel generalizing round g h with
  | zero => exact ⟨rfl, same⟩
  | succ fuel ih =>
    obtain ⟨hprunees, hbare⟩ := prune_bare same rules blind
    have hcount : g.prune.1 = h.prune.1 := congrArg List.length hprunees
    have hkept : g.prune.2.excludeRules = g.excludeRules := foldl_drop_excludeRules _ _
    have hkept' : h.prune.2.excludeRules = h.excludeRules := foldl_drop_excludeRules _ _
    have hblind : ∀ rule ∈ g.prune.2.excludeRules, rule.Blind := by
      rw [hkept]
      exact blind
    unfold pruneRounds
    simp only [← hcount]
    split
    · exact ⟨rfl, hbare⟩
    · obtain ⟨hcounts, hfinal⟩ := ih (round + 1) (g.prune.2.note (.roundPruned g.prune.1 round))
        (h.prune.2.note (.roundPruned g.prune.1 round)) hbare
        (hkept.trans (rules.trans hkept'.symm)) hblind
      exact ⟨by rw [hcounts], hfinal⟩

/-- A node that is left after pruning is as it was. -/
theorem node?_pruneRounds (fuel round : Nat) (g : Graph) :
    (pruneRounds fuel round g).2.net.node? id = some node → g.net.node? id = some node := by
  refine pruneRounds_keeps
    (Q := fun now => now.net.node? id = some node → g.net.node? id = some node) ?_
    (fun _ _ h => h) fuel round g fun hnode => hnode
  intro now removed hnow hnode
  change (now.net.removeNode removed).node? id = some node at hnode
  rw [node?_removeNode] at hnode
  split at hnode
  · cases hnode
  · exact hnow hnode

theorem pruneRounds_styled (fuel round : Nat) (g : Graph) :
    (pruneRounds fuel round g).2.styled = g.styled :=
  pruneRounds_keeps (Q := fun now => now.styled = g.styled) (fun _ _ h => h) (fun _ _ h => h)
    fuel round g rfl

end Graph

/-! ## Rules as they are written -/

namespace MatcherSpec

/-- The matcher that is written accepts the node. -/
def Matches (reader : PatternReader) (spec : MatcherSpec) (net : Network) (id : NodeId) : Prop :=
  ∃ rule matcher, spec.build reader rule = .ok matcher ∧ matcher.accepts net id = true

/-- The name of a rule matters for errors only. -/
theorem build_unique {reader : PatternReader} {spec : MatcherSpec} {rule other : String}
    {first second : Matcher} (h₁ : spec.build reader rule = .ok first)
    (h₂ : spec.build reader other = .ok second) : first = second := by
  unfold build at h₁ h₂
  split at h₁
  · simp_all
  · split at h₁ <;> simp_all
  · simp_all
  · cases h₁

theorem matches_iff {reader : PatternReader} {spec : MatcherSpec} {rule : String} {matcher : Matcher}
    (h : spec.build reader rule = .ok matcher) {net : Network} {id : NodeId} :
    spec.Matches reader net id ↔ matcher.accepts net id = true := by
  constructor
  · rintro ⟨other, found, hfound, haccepts⟩
    exact build_unique hfound h ▸ haccepts
  · exact fun haccepts => ⟨rule, matcher, h, haccepts⟩

end MatcherSpec

namespace StyleSpec

variable {reader : PatternReader}

/-- The rule that is written, once its matcher is built. -/
def Builds (reader : PatternReader) (spec : StyleSpec) (rule : Matcher × Style) : Prop :=
  (∃ name, spec.matcher.build reader name = .ok rule.1) ∧ rule.2 = spec.attributes

/-- Of the rules that match the node, the last one that has the attribute gives it this text. -/
def LastGives (reader : PatternReader) (specs : List StyleSpec) (net : Network) (id : NodeId)
    (name text : String) : Prop :=
  ∃ before spec after, specs = before ++ spec :: after ∧ spec.matcher.Matches reader net id ∧
    spec.attributes.get? name = some text ∧
    ∀ later ∈ after, later.matcher.Matches reader net id → later.attributes.get? name = none

theorem lastGives_cons {spec : StyleSpec} {rest : List StyleSpec} {net : Network} {id : NodeId}
    {name text : String} :
    LastGives reader (spec :: rest) net id name text ↔
      LastGives reader rest net id name text ∨
        (spec.matcher.Matches reader net id ∧ spec.attributes.get? name = some text ∧
          ∀ later ∈ rest, later.matcher.Matches reader net id → later.attributes.get? name = none) := by
  constructor
  · rintro ⟨before, found, after, hsplit, hfound⟩
    cases before with
    | nil =>
      obtain ⟨rfl, rfl⟩ := List.cons.inj hsplit
      exact .inr hfound
    | cons first before =>
      obtain ⟨_, hrest⟩ := List.cons.inj hsplit
      exact .inl ⟨before, found, after, hrest, hfound⟩
  · rintro (⟨before, found, after, hsplit, hfound⟩ | hfirst)
    · exact ⟨spec :: before, found, after, by rw [hsplit, List.cons_append], hfound⟩
    · exact ⟨[], spec, rest, rfl, hfirst⟩

/-- No rule that matches the node has the attribute. -/
theorem lastText?_eq_none_iff {specs : List StyleSpec} {rules : List (Matcher × Style)} {net : Network}
    {id : NodeId} {name : String} (built : List.Forall₂ (Builds reader) specs rules) :
    Graph.lastText? net id name rules = none ↔
      ∀ spec ∈ specs, spec.matcher.Matches reader net id → spec.attributes.get? name = none := by
  induction built with
  | nil => simp [Graph.lastText?]
  | @cons spec rule specs rules hrule _ ih =>
    obtain ⟨⟨label, hbuild⟩, hattributes⟩ := hrule
    rw [Graph.lastText?, Option.or_eq_none_iff, ih, List.forall_mem_cons, and_comm, ← hattributes,
      MatcherSpec.matches_iff hbuild]
    simp

/-- The text that is chosen is that of the last rule. -/
theorem lastText?_eq_some_iff {specs : List StyleSpec} {rules : List (Matcher × Style)} {net : Network}
    {id : NodeId} {name text : String} (built : List.Forall₂ (Builds reader) specs rules) :
    Graph.lastText? net id name rules = some text ↔ LastGives reader specs net id name text := by
  induction built with
  | nil => simp [Graph.lastText?, LastGives]
  | @cons spec rule specs rules hrule hrest ih =>
    obtain ⟨⟨label, hbuild⟩, hattributes⟩ := hrule
    rw [Graph.lastText?, Option.or_eq_some_iff, ih, lastText?_eq_none_iff hrest, lastGives_cons,
      ← hattributes, MatcherSpec.matches_iff hbuild]
    refine or_congr_right ?_
    rw [Option.ite_none_right_eq_some]
    tauto

end StyleSpec

namespace RuleSet

variable {reader : PatternReader}

theorem forall₂_buildAll {label : String} {number : Nat} {specs : List MatcherSpec}
    {matchers : List Matcher} (h : buildAll reader label number specs = .ok matchers) :
    List.Forall₂ (fun spec matcher => ∃ name, spec.build reader name = .ok matcher) specs matchers := by
  induction specs generalizing number matchers with
  | nil =>
    cases h
    exact .nil
  | cons spec rest ih =>
    unfold buildAll at h
    split at h
    · cases h
    · rename_i matcher hbuild
      split at h
      · cases h
      · rename_i others hrest
        cases h
        exact .cons ⟨_, hbuild⟩ (ih hrest)

theorem blind_of_mem_buildAll {label : String} {number : Nat} {specs : List MatcherSpec}
    {matchers : List Matcher} (h : buildAll reader label number specs = .ok matchers) :
    ∀ matcher ∈ matchers, matcher.Blind := by
  have hbuilt := forall₂_buildAll h
  clear h
  induction hbuilt with
  | nil => exact fun matcher hmatcher => absurd hmatcher List.not_mem_nil
  | cons hbuild _ ih =>
    obtain ⟨name, hbuild⟩ := hbuild
    exact List.forall_mem_cons.mpr ⟨Matcher.blind_of_build hbuild, ih⟩

/-- Matchers are put together again with the attributes that were written next to them. -/
theorem forall₂_zip {specs : List StyleSpec} {matchers : List Matcher}
    (h : List.Forall₂ (fun spec matcher => ∃ name, MatcherSpec.build spec reader name = .ok matcher)
      (specs.map (fun spec => spec.matcher)) matchers) :
    List.Forall₂ (StyleSpec.Builds reader) specs
      (matchers.zip (specs.map (fun spec => spec.attributes))) := by
  induction specs generalizing matchers with
  | nil =>
    cases h
    exact .nil
  | cons spec rest ih =>
    cases h with
    | cons hbuild hrest => exact .cons ⟨hbuild, rfl⟩ (ih hrest)

/-- Rules that are built do not look at styles, and the style rules are those that are written, in
their order. -/
theorem build_spec {rules : RuleSet} {ignore : List Matcher} {style : List (Matcher × Style)}
    (h : rules.build reader = .ok (ignore, style)) :
    (∀ matcher ∈ ignore, matcher.Blind) ∧ (∀ rule ∈ style, rule.1.Blind) ∧
      List.Forall₂ (StyleSpec.Builds reader) rules.style style := by
  unfold build at h
  split at h
  · cases h
  · rename_i matchers hignore
    split at h
    · cases h
    · rename_i styled hstyle
      cases h
      refine ⟨blind_of_mem_buildAll hignore, fun rule hrule => ?_, ?_⟩
      · exact blind_of_mem_buildAll hstyle rule.1 (List.of_mem_zip hrule).1
      · exact forall₂_zip (forall₂_buildAll hstyle)

end RuleSet

theorem Settings.style_ruleSet (s : Settings) :
    s.ruleSet.style =
      (if s.defaultStyles then RuleSet.defaultStyles else []) ++ s.rules.style := by
  unfold ruleSet
  split <;> rfl

/-! ## Finishing a build -/

/-- The graph is ready to be finished: the rules of the settings are installed, and neither has the
style step been taken nor has a node a style. -/
structure Graph.Prepared (reader : PatternReader) (settings : Settings) (g : Graph) : Prop where
  installed : settings.ruleSet.build reader = .ok (g.excludeRules, g.styleRules)
  unstyled : g.styled = false
  plain : g.net.bare = g.net

namespace Build

open Network ClassAtlas.Graph

variable {reader : PatternReader} {b : Build} {settings : Settings}

/-- The graph when pruning begins. -/
def dressed (b : Build) : Graph :=
  (b.note .applyingStyles).graph.applyStyles.note .pruningNodes

/-- The same build without style rules. -/
def unruled (b : Build) : Build :=
  { b with graph := { b.graph with styleRules := [] } }

theorem finish_report (b : Build) :
    b.finish.report = { b.report with
      rounds := b.dressed.pruneAll.1
      nodes := b.finish.graph.nodeCount
      edges := b.finish.graph.edgeCount } := rfl

theorem dressed_eq (unstyled : b.graph.styled = false) :
    b.dressed.styled = true ∧ b.dressed.excludeRules = b.graph.excludeRules ∧
      b.dressed.net = b.graph.net.nodeIds.foldl (styleNode b.graph.styleRules) b.graph.net := by
  have hflag : ¬(b.note .applyingStyles).graph.styled = true := by
    rw [show (b.note .applyingStyles).graph.styled = false from unstyled]
    exact Bool.false_ne_true
  unfold dressed applyStyles
  rw [if_neg hflag]
  exact ⟨rfl, rfl, rfl⟩

theorem bare_dressed (b : Build) : b.dressed.net.bare = b.graph.net.bare :=
  (b.note .applyingStyles).graph.bare_applyStyles

/-- The style step is taken once. What comes later only adds to the journal. -/
theorem noted_applyStyles_of_finish (unstyled : b.graph.styled = false) {h : Graph}
    (noted : Noted b.finish.graph h) : Noted b.finish.graph h.applyStyles := by
  have hstyled : h.styled = true := by
    rw [noted]
    exact (pruneRounds_styled _ _ b.dressed).trans (dressed_eq unstyled).1
  unfold applyStyles
  rw [if_pos hstyled, noted]
  exact noted_note _ _

/-- A node that survives has the texts that the rules decide in the graph before. -/
theorem style_finish (prepared : Prepared reader settings b.graph) {id : NodeId} {node : Node}
    (hnode : b.finish.graph.net.node? id = some node) (name text : String) :
    node.style.get? name = some text ↔
      StyleSpec.LastGives reader settings.ruleSet.style b.graph.net id name text := by
  obtain ⟨_, hblind, hbuilt⟩ := RuleSet.build_spec prepared.installed
  have hdressed : b.dressed.net.node? id = some node := node?_pruneRounds _ _ b.dressed hnode
  -- the node was there before, without a style
  have hbare : (b.graph.net.node? id).map Node.bare = some node.bare := by
    rw [← node?_bare, ← b.bare_dressed, node?_bare, hdressed]
    rfl
  obtain ⟨before, hbefore, _⟩ := Option.map_eq_some_iff.mp hbare
  have hplain : before.style = .empty := by
    have hself := node?_bare b.graph.net id
    rw [prepared.plain, hbefore, Option.map_some, Option.some.injEq] at hself
    rw [hself]
    rfl
  have hlisted : id ∈ b.graph.net.nodeIds := live_of_mem_nodeIds.mpr (live_iff.mpr ⟨before, hbefore⟩)
  rw [(dressed_eq prepared.unstyled).2.2] at hdressed
  obtain ⟨style, hstyled, htexts⟩ := node?_foldl_styleNode hblind b.graph.net.nodeIds hbefore
  obtain rfl : { before with style } = node := Option.some.inj (hstyled.symm.trans hdressed)
  have hnone : Style.empty.get? name = none := rfl
  rw [htexts, if_pos hlisted, hplain, hnone, Option.or_none, StyleSpec.lastText?_eq_some_iff hbuilt]

/-- Without style rules pruning begins with the network as it is. -/
theorem dressed_unruled (unstyled : b.graph.styled = false) : b.unruled.dressed.net = b.graph.net :=
  (dressed_eq (b := b.unruled) unstyled).2.2.trans (List.foldl_fixed' (fun _ => rfl) _)

/-- Without style rules the nodes that survive have no style. -/
theorem plain_unruled (unstyled : b.graph.styled = false) (plain : b.graph.net.bare = b.graph.net) :
    b.unruled.finish.graph.net.bare = b.unruled.finish.graph.net := by
  refine pruneRounds_keeps (Q := fun now => now.net.bare = now.net) (fun now id hnow => ?_)
    (fun _ _ h => h) _ _ b.unruled.dressed ?_
  · show (now.net.removeNode id).bare = now.net.removeNode id
    rw [bare_removeNode, hnow]
  · rw [dressed_unruled unstyled, plain]

/-- Style rules change nothing but styles, and nothing in the report. -/
theorem finish_unruled (prepared : Prepared reader settings b.graph) :
    b.finish.graph.net.bare = b.unruled.finish.graph.net ∧
      b.finish.report = b.unruled.finish.report := by
  have hunstyled : b.unruled.graph.styled = false := prepared.unstyled
  have hrules := (dressed_eq prepared.unstyled).2.1
  have hblind : ∀ rule ∈ b.dressed.excludeRules, rule.Blind := by
    rw [hrules]
    exact (RuleSet.build_spec prepared.installed).1
  have hsame : b.dressed.net.bare = b.unruled.dressed.net.bare :=
    b.bare_dressed.trans b.unruled.bare_dressed.symm
  have hfuel : b.dressed.nodeCount = b.unruled.dressed.nodeCount := by
    unfold nodeCount
    rw [← size_bare, hsame, size_bare]
  obtain ⟨hrounds, hbare⟩ : b.dressed.pruneAll.1 = b.unruled.dressed.pruneAll.1 ∧
      b.dressed.pruneAll.2.net.bare = b.unruled.dressed.pruneAll.2.net.bare := by
    unfold pruneAll
    rw [← hfuel]
    exact pruneRounds_bare b.dressed.nodeCount 1 b.dressed b.unruled.dressed hsame
      (hrules.trans (dressed_eq hunstyled).2.1.symm) hblind
  have hnet : b.finish.graph.net.bare = b.unruled.finish.graph.net :=
    hbare.trans (plain_unruled prepared.unstyled prepared.plain)
  have hnodes : b.finish.graph.nodeCount = b.unruled.finish.graph.nodeCount := by
    unfold nodeCount
    rw [← hnet, size_bare]
  have hedges : b.finish.graph.edgeCount = b.unruled.finish.graph.edgeCount :=
    congrArg (fun net => net.edges.size) hnet
  refine ⟨hnet, ?_⟩
  rw [finish_report, finish_report, hrounds, hnodes, hedges]
  rfl

/-- **Styles are decided before pruning.** A node that survives has the attributes that matching rules
give it, each with the text of the last such rule, and no others. The built-in rules come first, and a
rule matches if it does so in the graph before any pruning. But for styles, the network and the report
are those of a build without style rules. The styles are never applied again. -/
theorem styles_decided_before_pruning (prepared : Prepared reader settings b.graph) :
    (∀ id node, b.finish.graph.net.node? id = some node → ∀ name text,
      (node.style.get? name = some text ↔
        StyleSpec.LastGives reader
          ((if settings.defaultStyles then RuleSet.defaultStyles else []) ++ settings.rules.style)
          b.graph.net id name text)) ∧
    (b.finish.graph.net.bare = b.unruled.finish.graph.net ∧
      b.finish.report = b.unruled.finish.report) ∧
    ∀ n, Noted b.finish.graph (applyStyles^[n] b.finish.graph) := by
  refine ⟨fun id node hnode name text => ?_, finish_unruled prepared, fun n => ?_⟩
  · rw [← settings.style_ruleSet]
    exact style_finish prepared hnode name text
  · induction n with
    | zero => exact Noted.refl _
    | succ n ih =>
      rw [Function.iterate_succ_apply']
      exact noted_applyStyles_of_finish prepared.unstyled ih

/-- A reader for settings that have no pattern. -/
def noPatterns : PatternReader := fun _ => none

/-- `Child` is styled for being derived from `Base`, which is ignored. -/
def familySettings : Settings where
  rules := {
    ignore := [{ path := some "Base" }],
    style := [{ matcher := { predicate := some (.inheritsFrom "Base") },
                attributes := .ofList [("fillcolor", "gold")] }] }

/-- The rules of `familySettings`. -/
def familyRules : List Matcher × List (Matcher × Style) :=
  match familySettings.ruleSet.build noPatterns with
  | .ok rules => rules
  | .error _ => ([], [])

/-- A build of two classes by `familySettings`. -/
def family : Build where
  name := "family"
  sources := default
  graph := Graph.built familyRules.1 familyRules.2
    [[.classDecl (.relative ["Base"]) none [],
      .classDecl (.relative ["Child"]) (some (.relative ["Base"])) []]]

set_option maxRecDepth 20000 in
/-- The class is golden although the class that it is derived from is gone, and the built-in rule for
classes has another colour. -/
theorem styles_decided_of_family :
    Prepared noPatterns familySettings family.graph ∧ family.finish.graph.net.node? 0 = none ∧
      ∃ node, family.finish.graph.net.node? 1 = some node ∧
        node.style.get? "fillcolor" = some "gold" := by
  have hprepared : Prepared noPatterns familySettings family.graph := ⟨rfl, rfl, rfl⟩
  obtain ⟨hstyles, ⟨hnet, _⟩, _⟩ := styles_decided_before_pruning hprepared
  -- which nodes survive is read off the build without style rules
  have hdressed : family.unruled.dressed.net = family.graph.net := dressed_unruled rfl
  have hindexed : family.unruled.dressed.net.Indexed :=
    hdressed ▸ (consistent_of_reachable (reachable_built _ _ _)).sound.indexed
  have hrounds : Rounds 1 family.unruled.dressed _ family.unruled.finish.graph :=
    rounds_pruneAll hindexed
  have hremnant := hrounds.remnant (.refl hindexed)
  have hbase : ¬ family.unruled.finish.graph.net.Live 0 := by
    intro hlive
    have hpath := ignores_eq_false.mp (hrounds.none_ignored hlive) (.path (Path.parse "Base"))
      (hrounds.excludeRules_eq ▸ .head _)
    rw [Matcher.accepts, pathOf, hremnant.node?_eq hlive, hdressed] at hpath
    exact absurd hpath (by decide +kernel)
  have hchild : family.unruled.finish.graph.net.Live 1 := by
    refine hrounds.live_of_never_accepted (.refl hindexed) (hdressed ▸ live_iff.mpr ⟨_, rfl⟩)
      fun part hpart hlive rule hrule => ?_
    obtain rfl : rule = .path (Path.parse "Base") := List.mem_singleton.mp hrule
    rw [Matcher.accepts, pathOf, hpart.node?_eq hlive, hdressed]
    decide +kernel
  rw [← hnet, live_bare] at hbase hchild
  have hgone : family.finish.graph.net.node? 0 = none :=
    Option.eq_none_iff_forall_ne_some.mpr fun node hnode => hbase (live_iff.mpr ⟨node, hnode⟩)
  obtain ⟨node, hnode⟩ := live_iff.mp hchild
  refine ⟨hprepared, hgone, node, hnode, (hstyles 1 node hnode "fillcolor" "gold").mpr ?_⟩
  have hderived : (PredicateSpec.inheritsFrom "Base").holds family.graph.net 1 = true := by
    decide +kernel
  exact ⟨RuleSet.defaultStyles, _, [], rfl, ⟨"style #3", _, rfl, hderived⟩, rfl,
    fun later hlater => absurd hlater List.not_mem_nil⟩

end Build

end ClassAtlas
