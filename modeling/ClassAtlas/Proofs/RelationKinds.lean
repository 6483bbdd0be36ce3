import ClassAtlas.Proofs.Quotient

/-!
# The kinds of related nodes

A class derives from a class, and only modules are mixed in (`Network.WellKinded`). Both walks keep this
law, since a superclass or a mixin is recorded only if the kinds are right. The folds do not look at
kinds: a node that is absorbed may be of another kind than the one that takes its relations over. So
the law holds in all states of a build exactly if every relation that the folds carry over still ends
in nodes of the kinds that it ended in before; and that is so if only nodes of one kind are merged.
-/

namespace ClassAtlas

/-- The kinds of the two ends that a relation asks for. -/
def Relation.Joins : Relation → Option Kind → Option Kind → Prop
  | .containment, _, _ => True
  | .inheritance, source, target => source = some .classNode ∧ target = some .classNode
  | .inclusion, _, target => target = some .moduleNode
  | .extension, _, target => target = some .moduleNode

namespace Network

variable {net before after : Network} {f : NodeId → NodeId}

/-- Every inheritance joins two classes, and the target of every mixin is a module. -/
def WellKinded (net : Network) : Prop :=
  ∀ a b relation, net.Relates a b relation → relation.Joins (net.kindOf? a) (net.kindOf? b)

/-- Every relation that is carried over along `f` ends in nodes of the kinds that it ended in before. -/
def KeepsKinds (before after : Network) (f : NodeId → NodeId) : Prop :=
  ∀ a b relation, relation ≠ .containment → before.Relates a b relation →
    after.Relates (f a) (f b) relation →
    before.kindOf? (f b) = before.kindOf? b ∧
      (relation = .inheritance → before.kindOf? (f a) = before.kindOf? a)

theorem kindOf?_eq_look? (net : Network) (id : NodeId) :
    net.kindOf? id = (net.look? id).map Prod.fst := by
  unfold kindOf? look?
  cases net.node? id <;> rfl

/-- Fewer relations between nodes of the same kinds. -/
theorem WellKinded.mono (well : before.WellKinded)
    (edges : ∀ a b relation, after.Relates a b relation → before.Relates a b relation)
    (kinds : ∀ a b relation, after.Relates a b relation →
      after.kindOf? a = before.kindOf? a ∧ after.kindOf? b = before.kindOf? b) :
    after.WellKinded := by
  intro a b relation h
  obtain ⟨ha, hb⟩ := kinds a b relation h
  rw [ha, hb]
  exact well a b relation (edges a b relation h)

theorem WellKinded.restyled (well : net.WellKinded) (id : NodeId) (attributes : Style) :
    (Graph.restyled net id attributes).WellKinded := by
  have hkind : ∀ other, (Graph.restyled net id attributes).kindOf? other = net.kindOf? other := by
    intro other
    unfold Graph.restyled kindOf?
    rw [node?_modifyNode]
    by_cases hother : other = id
    · rw [if_pos hother, Option.map_map]
      rfl
    · rw [if_neg hother]
  exact well.mono (fun _ _ _ h => h) (fun a b _ _ => ⟨hkind a, hkind b⟩)

theorem WellKinded.removeNode (well : net.WellKinded) (sound : net.Sound) (id : NodeId) :
    (net.removeNode id).WellKinded := by
  have hkind : ∀ other, other ≠ id → (net.removeNode id).kindOf? other = net.kindOf? other := by
    intro other hne
    unfold kindOf?
    rw [node?_removeNode, if_neg hne]
  refine well.mono (fun _ _ _ h => (sound.relates_removeNode.mp h).1) fun a b _ h => ?_
  obtain ⟨_, ha, hb⟩ := sound.relates_removeNode.mp h
  exact ⟨hkind a ha, hkind b hb⟩

/-! ## Quotients -/

theorem Quotient.kindOf? (quotient : Quotient before after f) {id : NodeId} (live : after.Live id) :
    after.kindOf? id = before.kindOf? id := by
  rw [kindOf?_eq_look?, kindOf?_eq_look?, quotient.look id live]

/-- Every relation that is no containment comes from one before. -/
theorem Quotient.source (quotient : Quotient before after f) {a b : NodeId} {relation : Relation}
    (loose : relation ≠ .containment) (h : after.Relates a b relation) :
    ∃ a' b', before.Relates a' b' relation ∧ f a' = a ∧ f b' = b := by
  cases relation with
  | containment => exact absurd rfl loose
  | inheritance =>
      obtain ⟨a', b', hold, ha, hb, _⟩ := quotient.inherited a b h
      exact ⟨a', b', hold, ha, hb⟩
  | inclusion =>
      obtain ⟨a', b', hold, ha, hb, _⟩ := (quotient.mixins _ (.inl rfl) a b).mp h
      exact ⟨a', b', hold, ha, hb⟩
  | extension =>
      obtain ⟨a', b', hold, ha, hb, _⟩ := (quotient.mixins _ (.inr rfl) a b).mp h
      exact ⟨a', b', hold, ha, hb⟩

/-- A quotient keeps the kinds right exactly if it carries relations over to nodes of the same kinds. -/
theorem Quotient.wellKinded_iff (quotient : Quotient before after f) (sound : after.Sound)
    (well : before.WellKinded) : after.WellKinded ↔ KeepsKinds before after f := by
  have hkinds : ∀ a b relation, after.Relates a b relation →
      after.kindOf? a = before.kindOf? a ∧ after.kindOf? b = before.kindOf? b := by
    intro a b relation h
    obtain ⟨ha, hb⟩ := sound.ends a b relation h
    exact ⟨quotient.kindOf? ha, quotient.kindOf? hb⟩
  constructor
  · intro hafter a b relation loose hold hnew
    obtain ⟨ha, hb⟩ := hkinds _ _ _ hnew
    have hwas := well a b relation hold
    have his := hafter (f a) (f b) relation hnew
    rw [ha, hb] at his
    -- what a relation asks for leaves no choice for the ends in question
    cases relation with
    | containment => exact absurd rfl loose
    | inheritance => exact ⟨his.2.trans hwas.2.symm, fun _ => his.1.trans hwas.1.symm⟩
    | inclusion => exact ⟨Eq.trans his (Eq.symm hwas), fun h => by cases h⟩
    | extension => exact ⟨Eq.trans his (Eq.symm hwas), fun h => by cases h⟩
  · intro keeps a b relation hnew
    by_cases loose : relation = .containment
    · subst loose
      trivial
    · obtain ⟨a', b', hold, rfl, rfl⟩ := quotient.source loose hnew
      obtain ⟨ha, hb⟩ := hkinds _ _ _ hnew
      obtain ⟨htarget, hsource⟩ := keeps a' b' relation loose hold hnew
      have hwas := well a' b' relation hold
      rw [ha, hb, htarget]
      cases relation with
      | containment => trivial
      | inheritance => exact ⟨(hsource rfl).trans hwas.1, hwas.2⟩
      | inclusion => exact hwas
      | extension => exact hwas

/-- If only nodes of one kind are merged, a node is of the kind of the one that stands for it. -/
theorem kindOf?_heir {merges : List (NodeId × NodeId)}
    (alike : ∀ merge ∈ merges, net.kindOf? merge.1 = net.kindOf? merge.2) (id : NodeId) :
    net.kindOf? (heir merges id) = net.kindOf? id := by
  induction merges generalizing id with
  | nil => rfl
  | cons merge rest ih =>
      show net.kindOf? (heir rest (standIn merge.1 merge.2 id)) = _
      rw [ih fun other h => alike other (List.mem_cons_of_mem _ h)]
      by_cases hid : id = merge.1
      · rw [hid, standIn_self]
        exact (alike merge List.mem_cons_self).symm
      · rw [standIn_of_ne hid]

end Network

namespace Graph

open Network

variable {g h inner : Graph} {kind : Kind} {name : Reference} {path : Path}

/-! ## The walks -/

theorem wellKinded_enter (well : g.net.WellKinded) (sound : g.net.Sound)
    (hopen : g.enter kind name = some (path, inner)) : inner.net.WellKinded := by
  obtain ⟨outer, id, _, entered⟩ := entered_of_enter hopen
  intro a b relation hab
  rcases entered.relates_iff.mp hab with hold | ⟨_, _, rfl, _⟩
  · obtain ⟨ha, hb⟩ := sound.ends a b relation hold
    unfold kindOf?
    rw [entered.node?_of_live sound ha, entered.node?_of_live sound hb]
    exact well a b relation hold
  · trivial

theorem wellKinded_inherit (well : g.net.WellKinded) (superclass : Reference) :
    (g.inherit superclass).2.net.WellKinded := by
  intro a b relation hab
  rw [(Kept.inherit g superclass).kindOf?_eq, (Kept.inherit g superclass).kindOf?_eq]
  rcases (g.relates_inherit superclass).mp hab with hold | ⟨rfl, hin, _⟩
  · exact well a b relation hold
  · exact ⟨hin.kind, hin.targetKind⟩

theorem wellKinded_mix (well : g.net.WellKinded) (mixin : Mixin) (target : Reference) :
    (g.mix mixin target).2.net.WellKinded := by
  intro a b relation hab
  rw [(Kept.mix g mixin target).kindOf?_eq, (Kept.mix g mixin target).kindOf?_eq]
  rcases (g.relates_mix mixin target).mp hab with hold | ⟨rfl, hin, _⟩
  · exact well a b relation hold
  · cases mixin with
    | including => exact hin.targetKind
    | extending => exact hin.targetKind

theorem walkLaw_wellKinded : WalkLaw (fun g => g.net.WellKinded) where
  start := fun ignored styles a b relation hab => by cases hab
  setting := fun g scope pass rulesFrozen journal well => well
  step := fun g h standing step well => by
    cases step with
    | enter hopen => exact wellKinded_enter well standing.sound hopen
    | leave => exact well
    | inherit superclass => exact wellKinded_inherit well superclass
    | mix mixin target => exact wellKinded_mix well mixin target

/-! ## All states of a build -/

/-- **When relations join the right kinds.** They do in every state before the second pass ends. They do
in all states of a build exactly if the relations that the folds carry over end in nodes of the kinds
that they ended in before, and so if only nodes of one kind are merged. -/
theorem wellKinded_iff_keepsKinds (ignored : List Matcher) (styles : List (Matcher × Style))
    (files : List (List Item)) :
    let before := unfolded ignored styles files
    let after := built ignored styles files
    (∀ g, Underway ignored styles files g → g.net.WellKinded) ∧
      ((∀ g, Observed ignored styles files g → g.net.WellKinded) ↔
        KeepsKinds before.net after.net before.foldHeir) ∧
      ((∀ merge ∈ before.foldMerges, before.net.kindOf? merge.1 = before.net.kindOf? merge.2) →
        ∀ g, Observed ignored styles files g → g.net.WellKinded) := by
  intro before after
  obtain ⟨hsound, hrun⟩ := placed_built ignored styles files
  have hbefore : before.net.WellKinded := (walkLaw_wellKinded.unfolded ignored styles files).2
  have hafter : after.net.Sound :=
    (consistent_of_reachable (reachable_built ignored styles files)).sound
  have hiff : after.net.WellKinded ↔ KeepsKinds before.net after.net before.foldHeir :=
    (hrun.quotient hsound).wellKinded_iff hafter hbefore
  have hall : after.net.WellKinded → ∀ g, Observed ignored styles files g → g.net.WellKinded := by
    intro hbuilt g observed
    exact observed.law (fun net id attributes well => well.restyled id attributes)
      (fun net id sound well => well.removeNode sound id) walkLaw_wellKinded (fun _ well => well)
      hbuilt
  refine ⟨fun g early => walkLaw_wellKinded.underway early, ⟨?_, ?_⟩, ?_⟩
  · intro well
    exact hiff.mp (well after (.finished .built))
  · exact fun keeps => hall (hiff.mpr keeps)
  · intro alike
    refine hall (hiff.mpr fun a b relation _ _ _ => ?_)
    exact ⟨kindOf?_heir alike b, fun _ => kindOf?_heir alike a⟩

theorem wellKinded_of_derivedEarly :
    (unfolded [] [] derivedEarly).foldMerges = [(2, 6), (1, 5)] ∧
      (∀ merge ∈ (unfolded [] [] derivedEarly).foldMerges,
        (unfolded [] [] derivedEarly).net.kindOf? merge.1 =
          (unfolded [] [] derivedEarly).net.kindOf? merge.2) ∧
      ∀ g, Observed [] [] derivedEarly g → g.net.WellKinded := by
  have hmerges : (unfolded [] [] derivedEarly).foldMerges = [(2, 6), (1, 5)] := by decide +kernel
  have halike : ∀ merge ∈ (unfolded [] [] derivedEarly).foldMerges,
      (unfolded [] [] derivedEarly).net.kindOf? merge.1 =
        (unfolded [] [] derivedEarly).net.kindOf? merge.2 := by
    rw [hmerges]
    decide +kernel
  obtain ⟨_, _, hall⟩ := wellKinded_iff_keepsKinds [] [] derivedEarly
  exact ⟨hmerges, halike, hall halike⟩

/-- A module `X::Y` in `N` and a class `X::Y` in `M`, which stands before `M::X`. A class derives from the
latter under its bare path. -/
def sharedName : List (List Item) :=
  [[.moduleDecl (.relative ["N"])
      [.moduleDecl (.relative ["X"]) [], .moduleDecl (.relative ["X", "Y"]) []],
    .moduleDecl (.relative ["M"]) [.classDecl (.relative ["X", "Y"]) none []],
    .classDecl (.relative ["Z"]) (some (.absolute ["X", "Y"])) [],
    .moduleDecl (.relative ["M"]) [.moduleDecl (.relative ["X"]) []]]]

/-- The law can fail, also if no path is declared under both kinds: the class of `M` is folded into the
module of `N`, and in the end `Z` derives from that module. -/
theorem not_wellKinded_sharedName :
    ∃ g, Observed [] [] sharedName g ∧ ∃ a b, g.net.Relates a b .inheritance ∧
      g.net.pathOf b = ⟨["N", "X", "Y"]⟩ ∧ g.net.kindOf? b = some .moduleNode ∧
      ¬ g.net.WellKinded := by
  refine ⟨built [] [] sharedName, .finished .built, 5, 2, ?_⟩
  have hedge : (built [] [] sharedName).net.Relates 5 2 .inheritance :=
    hasEdge_iff.mp (by decide +kernel)
  have hkind : (built [] [] sharedName).net.kindOf? 2 = some .moduleNode := by decide +kernel
  refine ⟨hedge, by decide +kernel, hkind, fun well => ?_⟩
  have hclass : (built [] [] sharedName).net.kindOf? 2 = some .classNode :=
    (well 5 2 .inheritance hedge).2
  rw [hkind] at hclass
  cases hclass

end Graph

end ClassAtlas
