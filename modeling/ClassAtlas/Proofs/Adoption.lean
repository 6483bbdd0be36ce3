import ClassAtlas.Proofs.MergeLaws

/-!
# The relations of an absorbed node

When a node is absorbed, another one takes its relations over. This module says which relations are
there afterwards, seen from those before:

* an inclusion or extension between two nodes is there exactly if there was one between nodes that
  they stand for, where the absorbing node stands for itself and for the absorbed one
  (`Sound.mixes_absorb`);
* an inheritance is there only if there was such a one (`Sound.of_relates_absorb`); but not all are
  kept, since the absorbing node keeps the superclass that it has;
* a class other than the absorbed one keeps its superclass, or gets the node that stands for it
  (`Sound.relates_absorb_of_source`), and no class gets a second one (`Sound.singleSuper_absorb`).
-/

namespace ClassAtlas

namespace Network

variable {net : Network} {stale target a b : NodeId} {r : Relation}

/-- The node that stands for `id` once `target` has absorbed `stale`. -/
def standIn (stale target id : NodeId) : NodeId :=
  if id = stale then target else id

@[simp] theorem standIn_self (stale target : NodeId) : standIn stale target stale = target := by
  simp [standIn]

theorem standIn_of_ne {id : NodeId} (h : id ≠ stale) : standIn stale target id = id := by
  simp [standIn, h]

/-- No class has two superclasses. -/
def SingleSuper (net : Network) : Prop :=
  ∀ a b c, net.Relates a b .inheritance → net.Relates a c .inheritance → b = c

/-! ## One relation taken over -/

/-- An edge that is no containment is added unless it would be a loop. -/
theorem relates_link_loose {s t : NodeId} {q : Relation} (loose : q ≠ .containment) :
    (net.link s t q).Relates a b r ↔
      net.Relates a b r ∨ (a = s ∧ b = t ∧ r = q ∧ a ≠ b) := by
  rw [relates_link, admits_iff]
  constructor
  · rintro (⟨⟨hne, _, _⟩, rfl, rfl, rfl⟩ | h)
    · exact .inr ⟨rfl, rfl, rfl, hne⟩
    · exact .inl h
  · rintro (h | ⟨rfl, rfl, rfl, hne⟩)
    · exact .inr h
    · -- a copy is refused, but then the edge was there before
      by_cases hthere : net.Relates a b r
      · exact .inr hthere
      · exact .inl ⟨⟨hne, hthere, fun h => absurd h loose⟩, rfl, rfl, rfl⟩

/-- A relation that leaves the absorbed node is taken over, unless it is a second superclass. -/
theorem relates_adoptTarget {edge : Edge} (loose : edge.relation ≠ .containment) :
    (adoptTarget target net edge).Relates a b r ↔
      net.Relates a b r ∨
        ((edge.relation = .inheritance → ∀ c, ¬ net.Relates target c .inheritance) ∧
          a = target ∧ b = edge.target ∧ r = edge.relation ∧ a ≠ b) := by
  have hnone : (net.targets target .inheritance).isEmpty = true ↔
      ∀ c, ¬ net.Relates target c .inheritance := by
    rw [List.isEmpty_iff, List.eq_nil_iff_forall_not_mem]
    exact forall_congr' fun c => not_congr mem_targets
  unfold adoptTarget
  split
  · rename_i hkeep
    simp only [Bool.and_eq_true, beq_iff_eq, Bool.not_eq_true', Bool.eq_false_iff, ne_eq, hnone] at hkeep
    refine ⟨.inl, fun h => h.resolve_right ?_⟩
    rintro ⟨hfree, _⟩
    exact hkeep.2 (hfree hkeep.1)
  · rename_i htake
    rw [relates_link_loose loose]
    have hfree : edge.relation = .inheritance → ∀ c, ¬ net.Relates target c .inheritance := by
      intro hr
      rw [← hnone]
      simpa [hr] using htake
    simp only [and_iff_right hfree]

/-! ## All relations of the absorbed node -/

theorem relates_foldl_adoptSource {edges : List Edge}
    (loose : ∀ edge ∈ edges, edge.relation ≠ .containment) :
    (edges.foldl (adoptSource target) net).Relates a b r ↔
      net.Relates a b r ∨
        ∃ edge ∈ edges, a = edge.source ∧ b = target ∧ r = edge.relation ∧ a ≠ b := by
  induction edges generalizing net with
  | nil => simp
  | cons edge rest ih =>
      rw [List.foldl_cons, ih fun other h => loose other (List.mem_cons_of_mem _ h)]
      show (net.link edge.source target edge.relation).Relates a b r ∨ _ ↔ _
      rw [relates_link_loose (loose edge List.mem_cons_self), List.exists_mem_cons_iff, or_assoc]

/-- Taking relations over removes none. -/
theorem relates_foldl_adoptTarget_mono {edges : List Edge}
    (loose : ∀ edge ∈ edges, edge.relation ≠ .containment) (h : net.Relates a b r) :
    (edges.foldl (adoptTarget target) net).Relates a b r := by
  induction edges generalizing net with
  | nil => exact h
  | cons edge rest ih =>
      rw [List.foldl_cons]
      refine ih (fun other hother => loose other (List.mem_cons_of_mem _ hother)) ?_
      exact (relates_adoptTarget (loose edge List.mem_cons_self)).mpr (.inl h)

theorem of_relates_foldl_adoptTarget {edges : List Edge}
    (loose : ∀ edge ∈ edges, edge.relation ≠ .containment)
    (h : (edges.foldl (adoptTarget target) net).Relates a b r) :
    net.Relates a b r ∨
      ∃ edge ∈ edges, a = target ∧ b = edge.target ∧ r = edge.relation ∧ a ≠ b := by
  induction edges generalizing net with
  | nil => exact .inl h
  | cons edge rest ih =>
      rw [List.foldl_cons] at h
      rcases ih (fun other hother => loose other (List.mem_cons_of_mem _ hother)) h with
        hfirst | ⟨other, hother, hrest⟩
      · rcases (relates_adoptTarget (loose edge List.mem_cons_self)).mp hfirst with hold | hnew
        · exact .inl hold
        · exact .inr ⟨edge, List.mem_cons_self, hnew.2⟩
      · exact .inr ⟨other, List.mem_cons_of_mem _ hother, hrest⟩

/-- Whatever is no superclass is taken over. -/
theorem relates_foldl_adoptTarget_of_mem {edges : List Edge} {edge : Edge}
    (loose : ∀ edge ∈ edges, edge.relation ≠ .containment) (hmem : edge ∈ edges)
    (mixin : edge.relation ≠ .inheritance) (other : target ≠ edge.target) :
    (edges.foldl (adoptTarget target) net).Relates target edge.target edge.relation := by
  induction edges generalizing net with
  | nil => cases hmem
  | cons first rest ih =>
      have hrest : ∀ edge ∈ rest, edge.relation ≠ .containment := fun other hother =>
        loose other (List.mem_cons_of_mem _ hother)
      rw [List.foldl_cons]
      rcases List.mem_cons.mp hmem with rfl | hlater
      · refine relates_foldl_adoptTarget_mono hrest ?_
        rw [relates_adoptTarget (loose edge List.mem_cons_self)]
        exact .inr ⟨fun h => absurd h mixin, rfl, rfl, rfl, other⟩
      · exact ih hrest hlater

/-- A second superclass is not taken over, not even from two relations of the absorbed node. -/
theorem SingleSuper.foldl_adoptTarget {edges : List Edge} (single : net.SingleSuper)
    (loose : ∀ edge ∈ edges, edge.relation ≠ .containment) :
    (edges.foldl (adoptTarget target) net).SingleSuper := by
  induction edges generalizing net with
  | nil => exact single
  | cons edge rest ih =>
      rw [List.foldl_cons]
      refine ih ?_ fun other hother => loose other (List.mem_cons_of_mem _ hother)
      intro a b c hab hac
      have hloose := loose edge List.mem_cons_self
      rw [relates_adoptTarget hloose] at hab hac
      rcases hab with hb | ⟨hfree, rfl, rfl, hr, _⟩
      · rcases hac with hc | ⟨hfree, rfl, rfl, hr, _⟩
        · exact single a b c hb hc
        · exact absurd hb (hfree hr.symm b)
      · rcases hac with hc | ⟨_, _, rfl, _, _⟩
        · exact absurd hc (hfree hr.symm c)
        · rfl

theorem mem_loose_outgoing {edge : Edge} :
    edge ∈ loose (net.outgoing stale) ↔
      edge.source = stale ∧ net.Relates stale edge.target edge.relation ∧
        edge.relation ≠ .containment := by
  obtain ⟨source, target, relation⟩ := edge
  simp only [loose, outgoing, Relates, List.mem_filter, List.mem_map, beq_iff_eq, bne_iff_ne, ne_eq]
  constructor
  · rintro ⟨⟨entry, ⟨hmem, hsource⟩, hentry⟩, hloose⟩
    rw [hentry] at hsource
    subst hsource
    exact ⟨rfl, ⟨entry, hmem, hentry⟩, hloose⟩
  · rintro ⟨rfl, ⟨entry, hmem, hentry⟩, hloose⟩
    exact ⟨⟨entry, ⟨hmem, by rw [hentry]⟩, hentry⟩, hloose⟩

theorem mem_loose_incoming {edge : Edge} :
    edge ∈ loose (net.incoming stale) ↔
      edge.target = stale ∧ net.Relates edge.source stale edge.relation ∧
        edge.relation ≠ .containment := by
  obtain ⟨source, target, relation⟩ := edge
  simp only [loose, incoming, Relates, List.mem_filter, List.mem_map, beq_iff_eq, bne_iff_ne, ne_eq]
  constructor
  · rintro ⟨⟨entry, ⟨hmem, htarget⟩, hentry⟩, hloose⟩
    rw [hentry] at htarget
    subst htarget
    exact ⟨rfl, ⟨entry, hmem, hentry⟩, hloose⟩
  · rintro ⟨rfl, ⟨entry, hmem, hentry⟩, hloose⟩
    exact ⟨⟨entry, ⟨hmem, by rw [hentry]⟩, hentry⟩, hloose⟩

/-- The network in which the relations that leave `stale` are taken over. -/
def adoptedTargets (net : Network) (stale target : NodeId) : Network :=
  (loose (net.outgoing stale)).foldl (adoptTarget target) net

/-- The relations that enter the absorbed node are all taken over. -/
theorem relates_adopted :
    (net.adopted stale target).Relates a b r ↔
      (net.adoptedTargets stale target).Relates a b r ∨
        (net.Relates a stale r ∧ r ≠ .containment ∧ b = target ∧ a ≠ b) := by
  show ((loose (net.incoming stale)).foldl (adoptSource target)
    (net.adoptedTargets stale target)).Relates a b r ↔ _
  rw [relates_foldl_adoptSource fun edge h => (mem_loose_incoming.mp h).2.2]
  refine or_congr_right ⟨?_, ?_⟩
  · rintro ⟨edge, hmem, rfl, rfl, rfl, hne⟩
    obtain ⟨_, hrel, hloose⟩ := mem_loose_incoming.mp hmem
    exact ⟨hrel, hloose, rfl, hne⟩
  · rintro ⟨hrel, hloose, rfl, hne⟩
    exact ⟨⟨a, stale, r⟩, mem_loose_incoming.mpr ⟨rfl, hrel, hloose⟩, rfl, rfl, rfl, hne⟩

theorem relates_adoptedTargets_mono (h : net.Relates a b r) :
    (net.adoptedTargets stale target).Relates a b r :=
  relates_foldl_adoptTarget_mono (fun _ hedge => (mem_loose_outgoing.mp hedge).2.2) h

theorem of_relates_adoptedTargets (h : (net.adoptedTargets stale target).Relates a b r) :
    net.Relates a b r ∨ (net.Relates stale b r ∧ a = target ∧ a ≠ b) := by
  rcases of_relates_foldl_adoptTarget (fun _ hedge => (mem_loose_outgoing.mp hedge).2.2) h with
    hold | ⟨edge, hmem, rfl, rfl, rfl, hne⟩
  · exact .inl hold
  · exact .inr ⟨(mem_loose_outgoing.mp hmem).2.1, rfl, hne⟩

theorem relates_adoptedTargets_of_mixin (h : net.Relates stale b r) (loose : r ≠ .containment)
    (mixin : r ≠ .inheritance) (other : target ≠ b) :
    (net.adoptedTargets stale target).Relates target b r := by
  have hmem : (⟨stale, b, r⟩ : Edge) ∈ Network.loose (net.outgoing stale) :=
    mem_loose_outgoing.mpr ⟨rfl, h, loose⟩
  exact relates_foldl_adoptTarget_of_mem (fun _ hedge => (mem_loose_outgoing.mp hedge).2.2) hmem
    mixin other

/-! ## The absorbed node is gone -/

namespace Sound

/-- What is left when the absorbed node is removed. -/
theorem relates_absorb_adopted (sound : net.Sound) (live : net.Live target) :
    (net.absorb stale target).Relates a b r ↔
      (net.adopted stale target).Relates a b r ∧ a ≠ stale ∧ b ≠ stale := by
  have hsame := sound.sameTree_adopted stale live
  rw [absorb_eq]
  split
  · rw [(hsame.sound.markSingleton target).relates_removeNode, relates_markSingleton]
  · rw [hsame.sound.relates_removeNode]

/-- Every relation that is there after absorbing stands for one that was there before. -/
theorem of_relates_absorb (sound : net.Sound) (live : net.Live target)
    (h : (net.absorb stale target).Relates a b r) :
    ∃ a' b', net.Relates a' b' r ∧ standIn stale target a' = a ∧ standIn stale target b' = b ∧
      a ≠ b := by
  obtain ⟨hadopted, ha, hb⟩ := (sound.relates_absorb_adopted live).mp h
  have hne : a ≠ b := by
    rintro rfl
    exact (sound.absorb stale live).loopless a r h
  rcases relates_adopted.mp hadopted with hleaving | ⟨hentering, _, rfl, _⟩
  · rcases of_relates_adoptedTargets hleaving with hold | ⟨hold, rfl, _⟩
    · exact ⟨a, b, hold, standIn_of_ne ha, standIn_of_ne hb, hne⟩
    · exact ⟨stale, b, hold, standIn_self _ _, standIn_of_ne hb, hne⟩
  · exact ⟨a, stale, hentering, standIn_of_ne ha, standIn_self _ _, hne⟩

/-- A relation whose source stays is still there, from that source to whatever stands for its
target. -/
theorem relates_absorb_of_source (sound : net.Sound) (live : net.Live target)
    (apart : target ≠ stale) (h : net.Relates a b r) (loose : r ≠ .containment) (ha : a ≠ stale)
    (other : a ≠ standIn stale target b) :
    (net.absorb stale target).Relates a (standIn stale target b) r := by
  rw [sound.relates_absorb_adopted live]
  by_cases hb : b = stale
  · subst hb
    rw [standIn_self] at other ⊢
    exact ⟨relates_adopted.mpr (.inr ⟨h, loose, rfl, other⟩), ha, apart⟩
  · rw [standIn_of_ne hb]
    exact ⟨relates_adopted.mpr (.inl (relates_adoptedTargets_mono h)), ha, hb⟩

/-- Inclusions and extensions after absorbing are those from before, between the nodes that stand for
their ends. -/
theorem mixes_absorb (sound : net.Sound) (live : net.Live target) (apart : target ≠ stale)
    (loose : r ≠ .containment) (mixin : r ≠ .inheritance) :
    (net.absorb stale target).Relates a b r ↔
      ∃ a' b', net.Relates a' b' r ∧ standIn stale target a' = a ∧ standIn stale target b' = b ∧
        a ≠ b := by
  refine ⟨sound.of_relates_absorb live, ?_⟩
  rintro ⟨a', b', h, rfl, rfl, hne⟩
  by_cases ha : a' = stale
  · subst ha
    have hb : b' ≠ a' := by
      rintro rfl
      exact sound.loopless b' r h
    rw [standIn_self] at hne ⊢
    rw [standIn_of_ne hb] at hne ⊢
    rw [sound.relates_absorb_adopted live, relates_adopted]
    exact ⟨.inl (relates_adoptedTargets_of_mixin h loose mixin hne), apart, hb⟩
  · rw [standIn_of_ne ha] at hne ⊢
    exact sound.relates_absorb_of_source live apart h loose ha hne

/-- Absorbing a node gives no class a second superclass. -/
theorem singleSuper_absorb (sound : net.Sound) (live : net.Live target) (single : net.SingleSuper) :
    (net.absorb stale target).SingleSuper := by
  have hfirst : (net.adoptedTargets stale target).SingleSuper :=
    single.foldl_adoptTarget fun _ hedge => (mem_loose_outgoing.mp hedge).2.2
  -- a class below the absorbed node has no superclass but that one, and that one is removed
  have hmixed : ∀ a b, (net.adoptedTargets stale target).Relates a b .inheritance → b ≠ stale →
      ¬ net.Relates a stale .inheritance := by
    intro a b hab hb hstale
    exact hb (hfirst a b stale hab (relates_adoptedTargets_mono hstale))
  intro a b c hab hac
  obtain ⟨hab, _, hb⟩ := (sound.relates_absorb_adopted live).mp hab
  obtain ⟨hac, _, hc⟩ := (sound.relates_absorb_adopted live).mp hac
  rcases relates_adopted.mp hab with hab | ⟨habove, _, rfl, _⟩
  · rcases relates_adopted.mp hac with hac | ⟨hacove, _, rfl, _⟩
    · exact hfirst a b c hab hac
    · exact absurd hacove (hmixed a b hab hb)
  · rcases relates_adopted.mp hac with hac | ⟨_, _, rfl, _⟩
    · exact absurd habove (hmixed a c hac hc)
    · rfl

end Sound

end Network

end ClassAtlas
