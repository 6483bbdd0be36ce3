import ClassAtlas.Graph.Finish
import ClassAtlas.Item
import ClassAtlas.Proofs.MergeLaws

/-!
# What the operations on a graph do

One law for each operation that says all it can do to the network, the scopes and the pass: opening a
declaration finds or makes one node and may give it a container; a superclass or a mixin adds one
edge, marks one module or does nothing. Later proofs use these laws and do not open the operations.
-/

namespace ClassAtlas

/-! ## Resolution gives nodes -/

namespace Network

variable {net : Network}

theorem Sound.live_of_resolveName (sound : net.Sound) {name : String} {origin : Option NodeId}
    {id : NodeId} (h : net.resolveName name origin = some id) : net.Live id := by
  unfold resolveName at h
  split at h
  · rename_i found hfound
    obtain ⟨scope, _, hscope⟩ := List.exists_of_findSome?_eq_some hfound
    rw [← Option.some.inj h]
    exact sound.live_of_lookup hscope
  · exact sound.live_of_lookup h

theorem Sound.live_of_descend (sound : net.Sound) {segments : List String} {start id : NodeId}
    (live : net.Live start) (h : net.descend start segments = some id) : net.Live id := by
  induction segments generalizing start with
  | nil =>
      rw [← Option.some.inj h]
      exact live
  | cons name rest ih =>
      unfold descend at h
      split at h
      · rename_i inner hinner
        exact ih (sound.live_of_lookup hinner) h
      · exact absurd h (by simp)

theorem Sound.live_of_resolveSegments (sound : net.Sound) {segments : List String}
    {origin : Option NodeId} {id : NodeId} (h : net.resolveSegments segments origin = some id) :
    net.Live id := by
  unfold resolveSegments at h
  split at h
  · exact absurd h (by simp)
  · split at h
    · rename_i base hbase
      exact sound.live_of_descend (sound.live_of_resolveName hbase) h
    · exact absurd h (by simp)

theorem Sound.live_of_resolve (sound : net.Sound) {name : Reference} {origin : Option NodeId}
    {id : NodeId} (h : net.resolve name origin = some id) : net.Live id := by
  cases name with
  | relative segments => exact sound.live_of_resolveSegments h
  | absolute segments => exact sound.live_of_lookup h
  | selfRef => exact absurd h (by simp [resolve])

end Network

namespace Graph

open Network

variable {g h k inner : Graph} {kind : Kind} {name : Reference} {path : Path}

/-- Only the journal differs. -/
def Noted (g h : Graph) : Prop :=
  h = { g with journal := h.journal }

theorem Noted.refl (g : Graph) : Noted g g := rfl

theorem noted_note (g : Graph) (event : Event) : Noted g (g.note event) := rfl

/-- Nothing differs but the network, the rules and the journal. -/
structure SameSetting (g h : Graph) : Prop where
  scope : h.scope = g.scope
  pass : h.pass = g.pass
  provisional : h.provisional = g.provisional
  relocations : h.relocations = g.relocations

theorem SameSetting.refl (g : Graph) : SameSetting g g :=
  ⟨rfl, rfl, rfl, rfl⟩

theorem SameSetting.trans (first : SameSetting g h) (second : SameSetting h k) : SameSetting g k :=
  ⟨second.scope.trans first.scope, second.pass.trans first.pass,
    second.provisional.trans first.provisional, second.relocations.trans first.relocations⟩

theorem SameSetting.of_noted (noted : Noted g h) : SameSetting g h := by
  rw [noted]
  exact ⟨rfl, rfl, rfl, rfl⟩

/-! ## Declarations -/

theorem mem_scope_of_top? {id : NodeId} (h : g.top? = some id) : id ∈ g.scope :=
  List.mem_of_mem_head? h

/-- A declaration has a name. If it lies in a node, that node is there and its path is the enclosing
one. -/
theorem declarationTarget_spec (sound : g.net.Sound) (live : ∀ id ∈ g.scope, g.net.Live id)
    {outer : Option NodeId} (h : g.declarationTarget name = some (path, outer)) :
    path.segments ≠ [] ∧
      ∀ id, outer = some id → g.net.Live id ∧ path = (g.net.pathOf id).child path.name := by
  unfold declarationTarget at h
  split at h
  · exact absurd h (by simp)
  · exact absurd h (by simp)
  · exact absurd h (by simp)
  · split at h
    · rename_i top htop
      obtain ⟨rfl, rfl⟩ := Prod.mk.inj (Option.some.inj h)
      refine ⟨by simp, fun id hid => ?_⟩
      rw [← Option.some.inj hid]
      exact ⟨live _ (mem_scope_of_top? htop), by simp⟩
    · obtain ⟨rfl, rfl⟩ := Prod.mk.inj (Option.some.inj h)
      exact ⟨by simp, by simp⟩
  · split at h
    · rename_i around hfound
      obtain ⟨rfl, rfl⟩ := Prod.mk.inj (Option.some.inj h)
      refine ⟨by simp, fun id hid => ?_⟩
      rw [← Option.some.inj hid]
      exact ⟨sound.live_of_resolveSegments hfound, by simp⟩
    · rename_i hnonempty _ _ _
      obtain ⟨rfl, rfl⟩ := Prod.mk.inj (Option.some.inj h)
      refine ⟨fun hnil => ?_, by simp⟩
      simp only at hnil
      subst hnil
      simp at *
  · rename_i hnonempty
    obtain ⟨rfl, rfl⟩ := Prod.mk.inj (Option.some.inj h)
    refine ⟨fun hnil => hnonempty (by simpa using hnil), fun id hid => ?_⟩
    obtain ⟨enclosing, hparent, hfound⟩ := Option.bind_eq_some_iff.mp hid
    refine ⟨sound.live_of_lookup hfound, ?_⟩
    rw [sound.pathOf_of_lookup hfound]
    exact (Path.parent?_eq_some hparent).1

/-- A path has a node already, or gets a new one. -/
theorem findOrAdd_cases (g : Graph) (path : Path) (kind : Kind) :
    (g.net.lookup path = some (g.findOrAdd path kind).1 ∧ Noted g (g.findOrAdd path kind).2) ∨
    (g.net.lookup path = none ∧ (g.findOrAdd path kind).1 = g.net.nextId ∧
      (g.findOrAdd path kind).2 = { g with net := g.net.addNode { path := path, kind := kind } }) := by
  unfold findOrAdd
  cases hfound : g.net.lookup path with
  | none => exact .inr ⟨rfl, rfl, rfl⟩
  | some id =>
      left
      simp only
      split
      · split
        · exact ⟨rfl, .refl g⟩
        · exact ⟨rfl, noted_note g _⟩
      · exact ⟨rfl, .refl g⟩

theorem sameSetting_findOrAdd (g : Graph) (path : Path) (kind : Kind) :
    SameSetting g (g.findOrAdd path kind).2 := by
  rcases g.findOrAdd_cases path kind with ⟨_, h⟩ | ⟨_, _, h⟩
  · exact .of_noted h
  · rw [h]
    exact ⟨rfl, rfl, rfl, rfl⟩

/-- Keeping track of provisional nodes changes the two lists of them and nothing else. -/
theorem trackProvisional_rest (g : Graph) (name : Reference) (path : Path) (outer : Option NodeId)
    (id : NodeId) :
    g.trackProvisional name path outer id =
      { g with
        provisional := (g.trackProvisional name path outer id).provisional
        relocations := (g.trackProvisional name path outer id).relocations } := by
  unfold trackProvisional
  split
  · rfl
  · split <;> rfl
  · simp only
    split
    · rfl
    · split
      · rfl
      · split <;> rfl

/-- The network after a node has been put into the one around it. -/
def containedNet (net : Network) (outer : Option NodeId) (id : NodeId) : Network :=
  match outer with
  | none => net
  | some outer => net.link outer id .containment

@[simp] theorem node?_containedNet (net : Network) (outer : Option NodeId) (id other : NodeId) :
    (containedNet net outer id).node? other = net.node? other := by
  cases outer with
  | none => rfl
  | some outer => exact node?_link _ _ _ _ _

@[simp] theorem lookup_containedNet (net : Network) (outer : Option NodeId) (id : NodeId)
    (path : Path) : (containedNet net outer id).lookup path = net.lookup path := by
  cases outer with
  | none => rfl
  | some outer => exact lookup_link _ _ _ _ _

theorem sound_containedNet {net : Network} {outer : Option NodeId} {id : NodeId} (sound : net.Sound)
    (live : net.Live id) (around : ∀ other, outer = some other → net.Live other) :
    (containedNet net outer id).Sound := by
  cases outer with
  | none => exact sound
  | some outer => exact sound.link (around outer rfl) live

theorem relates_containedNet {net : Network} {outer : Option NodeId} {id a b : NodeId}
    {r : Relation} :
    (containedNet net outer id).Relates a b r ↔ net.Relates a b r ∨
      (outer = some a ∧ b = id ∧ r = .containment ∧ a ≠ id ∧
        ∀ other, ¬ net.Relates other id .containment) := by
  cases outer with
  | none => simp [containedNet]
  | some outer =>
      show (net.link outer id .containment).Relates a b r ↔ _
      rw [relates_link, admits_iff]
      constructor
      · rintro (⟨⟨hne, _, hfree⟩, rfl, rfl, rfl⟩ | h)
        · exact .inr ⟨rfl, rfl, rfl, hne, hfree rfl⟩
        · exact .inl h
      · rintro (h | ⟨hout, rfl, rfl, hne, hfree⟩)
        · exact .inr h
        · obtain rfl := Option.some.inj hout
          exact .inl ⟨⟨hne, hfree outer, fun _ => hfree⟩, rfl, rfl, rfl⟩

theorem contain_eq (g : Graph) (outer : Option NodeId) (id : NodeId) :
    g.contain outer id = { g with net := containedNet g.net outer id } := by
  unfold contain containedNet
  cases outer <;> rfl

/-- A declaration whose path and surroundings are known: its node is there, tracked and contained. -/
def declared (g : Graph) (kind : Kind) (name : Reference) (path : Path) (outer : Option NodeId) :
    Graph :=
  ((g.findOrAdd path kind).2.trackProvisional name path outer (g.findOrAdd path kind).1).contain
    outer (g.findOrAdd path kind).1

/-- The graph inside that declaration. -/
def opened (g : Graph) (kind : Kind) (name : Reference) (path : Path) (outer : Option NodeId) :
    Graph :=
  { g.declared kind name path outer with
    scope := (g.findOrAdd path kind).1 :: (g.declared kind name path outer).scope }

theorem enter_eq (g : Graph) (kind : Kind) (name : Reference) :
    g.enter kind name =
      match g.declarationTarget name with
      | none => none
      | some (path, outer) => some (path, g.opened kind name path outer) := rfl

theorem net_opened (g : Graph) (kind : Kind) (name : Reference) (path : Path)
    (outer : Option NodeId) :
    (g.opened kind name path outer).net =
      containedNet (g.findOrAdd path kind).2.net outer (g.findOrAdd path kind).1 := by
  show (g.declared kind name path outer).net = _
  unfold declared
  rw [contain_eq, trackProvisional_rest]

theorem scope_opened (g : Graph) (kind : Kind) (name : Reference) (path : Path)
    (outer : Option NodeId) :
    (g.opened kind name path outer).scope = (g.findOrAdd path kind).1 :: g.scope := by
  show _ :: (g.declared kind name path outer).scope = _
  unfold declared
  rw [contain_eq, trackProvisional_rest]
  rw [(g.sameSetting_findOrAdd path kind).scope]

theorem pass_opened (g : Graph) (kind : Kind) (name : Reference) (path : Path)
    (outer : Option NodeId) : (g.opened kind name path outer).pass = g.pass := by
  show (g.declared kind name path outer).pass = _
  unfold declared
  rw [contain_eq, trackProvisional_rest]
  exact (g.sameSetting_findOrAdd path kind).pass

/-- All that opening a declaration does to the network, the scopes and the pass: its node `id` is
found or made, it is put into the node around it, and it becomes the innermost scope. -/
structure Entered (g inner : Graph) (kind : Kind) (path : Path) (outer : Option NodeId)
    (id : NodeId) : Prop where
  net : (g.net.lookup path = some id ∧ inner.net = containedNet g.net outer id) ∨
    (g.net.lookup path = none ∧ id = g.net.nextId ∧
      inner.net = containedNet (g.net.addNode { path := path, kind := kind }) outer id)
  scope : inner.scope = id :: g.scope
  pass : inner.pass = g.pass

theorem entered_opened (g : Graph) (kind : Kind) (name : Reference) (path : Path)
    (outer : Option NodeId) :
    Entered g (g.opened kind name path outer) kind path outer (g.findOrAdd path kind).1 := by
  refine ⟨?_, g.scope_opened kind name path outer, g.pass_opened kind name path outer⟩
  rw [net_opened]
  rcases g.findOrAdd_cases path kind with ⟨hfound, hsame⟩ | ⟨hnone, hid, hnew⟩
  · refine .inl ⟨hfound, ?_⟩
    rw [hsame]
  · refine .inr ⟨hnone, hid, ?_⟩
    rw [hnew]

theorem enter_eq_some (h : g.enter kind name = some (path, inner)) :
    ∃ outer, g.declarationTarget name = some (path, outer) ∧
      inner = g.opened kind name path outer := by
  rw [enter_eq] at h
  split at h
  · exact absurd h (by simp)
  · rename_i path' outer htarget
    obtain ⟨hpath, hinner⟩ := Prod.mk.inj (Option.some.inj h)
    subst hpath
    exact ⟨outer, htarget, hinner.symm⟩

theorem entered_of_enter (h : g.enter kind name = some (path, inner)) :
    ∃ outer id, g.declarationTarget name = some (path, outer) ∧
      Entered g inner kind path outer id := by
  obtain ⟨outer, htarget, rfl⟩ := enter_eq_some h
  exact ⟨outer, _, htarget, g.entered_opened kind name path outer⟩

namespace Entered

variable {outer : Option NodeId} {id : NodeId}

/-- The node of a declaration is there, under the path of the declaration. -/
theorem lookup_path (entered : Entered g inner kind path outer id) :
    inner.net.lookup path = some id := by
  rcases entered.net with ⟨hfound, hnet⟩ | ⟨_, hid, hnet⟩
  · rw [hnet, lookup_containedNet, hfound]
  · rw [hnet, lookup_containedNet, lookup_addNode, if_pos rfl, hid]

/-- Every other path has the node that it had. -/
theorem lookup_of_ne (entered : Entered g inner kind path outer id) {other : Path}
    (h : other ≠ path) : inner.net.lookup other = g.net.lookup other := by
  rcases entered.net with ⟨_, hnet⟩ | ⟨_, _, hnet⟩
  · rw [hnet, lookup_containedNet]
  · rw [hnet, lookup_containedNet, lookup_addNode, if_neg h]

/-- A path that has a node keeps it. -/
theorem lookup_mono (entered : Entered g inner kind path outer id) {other : Path} {found : NodeId}
    (h : g.net.lookup other = some found) : inner.net.lookup other = some found := by
  by_cases hother : other = path
  · subst hother
    rcases entered.net with ⟨hfound, _⟩ | ⟨hnone, _⟩
    · rw [entered.lookup_path, ← hfound, h]
    · rw [hnone] at h
      cases h
  · rw [entered.lookup_of_ne hother, h]

theorem known_iff (entered : Entered g inner kind path outer id) {other : Path} :
    inner.net.Known other ↔ g.net.Known other ∨ other = path := by
  unfold Known
  by_cases hother : other = path
  · subst hother
    exact ⟨fun _ => .inr rfl, fun _ => ⟨id, entered.lookup_path⟩⟩
  · rw [entered.lookup_of_ne hother]
    exact ⟨.inl, fun h => h.resolve_right hother⟩

/-- Nodes that are there stay as they are. -/
theorem node?_of_live (entered : Entered g inner kind path outer id) (sound : g.net.Sound)
    {other : NodeId} (live : g.net.Live other) : inner.net.node? other = g.net.node? other := by
  rcases entered.net with ⟨_, hnet⟩ | ⟨_, _, hnet⟩
  · rw [hnet, node?_containedNet]
  · have hne : other ≠ g.net.nextId := by
      rintro rfl
      exact sound.nextId_not_live live
    rw [hnet, node?_containedNet, node?_addNode, if_neg hne]

theorem sound (entered : Entered g inner kind path outer id) (sound : g.net.Sound)
    (live : ∀ around, outer = some around → g.net.Live around) : inner.net.Sound := by
  rcases entered.net with ⟨hfound, hnet⟩ | ⟨hnone, hid, hnet⟩
  · rw [hnet]
    exact sound_containedNet sound (sound.live_of_lookup hfound) live
  · rw [hnet]
    refine sound_containedNet (sound.addNode hnone) (live_addNode.mpr (.inl hid)) ?_
    exact fun around h => live_addNode.mpr (.inr (live around h))

/-- The relations are those from before, and the node may lie in the one around it. -/
theorem relates_iff (entered : Entered g inner kind path outer id) {a b : NodeId} {r : Relation} :
    inner.net.Relates a b r ↔ g.net.Relates a b r ∨
      (outer = some a ∧ b = id ∧ r = .containment ∧ a ≠ id ∧
        ∀ other, ¬ g.net.Relates other id .containment) := by
  rcases entered.net with ⟨_, hnet⟩ | ⟨_, _, hnet⟩
  · rw [hnet]
    exact relates_containedNet
  · rw [hnet]
    exact relates_containedNet

end Entered

/-! ## Relations -/

/-- The superclass named here is recorded: the innermost declaration is a class without one, and the
name is that of a class. -/
structure Inherits (g : Graph) (superclass : Reference) (cls target : NodeId) : Prop where
  pass : g.pass = some .findRelations
  top : g.top? = some cls
  kind : g.net.kindOf? cls = some .classNode
  resolved : g.net.resolve superclass g.superclassOrigin = some target
  targetKind : g.net.kindOf? target = some .classNode
  first : g.net.targets cls .inheritance = []

/-- A superclass is recorded as an edge, or nothing but the journal changes. -/
theorem inherit_cases (g : Graph) (superclass : Reference) :
    (∃ cls target, Inherits g superclass cls target ∧
      g.inherit superclass = g.connect cls target .inheritance) ∨
    ((g.inherit superclass).1 = false ∧ Noted g (g.inherit superclass).2 ∧
      ∀ cls target, ¬ Inherits g superclass cls target) := by
  unfold inherit
  by_cases hpass : g.pass = some .findRelations
  · rw [if_neg (not_not_intro hpass)]
    cases htop : g.top? with
    | none =>
        refine .inr ⟨rfl, .refl g, fun cls target h => ?_⟩
        exact absurd (htop.symm.trans h.top) (by simp)
    | some cls =>
        have hcls : ∀ cls' target, Inherits g superclass cls' target → cls' = cls := fun cls' _ h =>
          Option.some.inj (h.top.symm.trans htop)
        by_cases hkind : g.net.kindOf? cls = some .classNode
        · simp only [if_neg (not_not_intro hkind)]
          cases hfound : g.net.resolve superclass g.superclassOrigin with
          | none =>
              refine .inr ⟨rfl, noted_note g _, fun cls' target h => ?_⟩
              exact absurd (hfound.symm.trans h.resolved) (by simp)
          | some target =>
              have htarget : ∀ cls' other, Inherits g superclass cls' other → other = target :=
                fun _ _ h => Option.some.inj (h.resolved.symm.trans hfound)
              by_cases hclass : g.net.kindOf? target = some .classNode
              · simp only [if_neg (not_not_intro hclass)]
                cases hfirst : (g.net.targets cls .inheritance).head? with
                | none =>
                    have hnil := List.head?_eq_none_iff.mp hfirst
                    exact .inl ⟨cls, target, ⟨hpass, htop, hkind, hfound, hclass, hnil⟩, rfl⟩
                | some existing =>
                    have hno : ∀ cls' other, ¬ Inherits g superclass cls' other := by
                      intro cls' other h
                      have hnil := h.first
                      rw [hcls cls' other h] at hnil
                      rw [hnil] at hfirst
                      exact absurd hfirst (by simp)
                    right
                    simp only
                    split
                    · exact ⟨rfl, .refl g, hno⟩
                    · exact ⟨rfl, noted_note g _, hno⟩
              · simp only [if_pos hclass]
                refine .inr ⟨trivial, noted_note g _, fun cls' other h => hclass ?_⟩
                rw [← htarget cls' other h]
                exact h.targetKind
        · simp only [if_pos hkind]
          refine .inr ⟨trivial, noted_note g _, fun cls' other h => hkind ?_⟩
          rw [← hcls cls' other h]
          exact h.kind
  · rw [if_pos hpass]
    exact .inr ⟨rfl, noted_note g _, fun _ _ h => hpass h.pass⟩

/-- The mixin named here is recorded: the name is that of a module. -/
structure Mixes (g : Graph) (name : Reference) (owner target : NodeId) : Prop where
  pass : g.pass = some .findRelations
  top : g.top? = some owner
  other : name ≠ .selfRef
  resolved : g.net.resolve name (some owner) = some target
  targetKind : g.net.kindOf? target = some .moduleNode

/-- A mixin is recorded as an edge, or it marks the innermost declaration as extending itself, or
nothing but the journal changes. -/
theorem mix_cases (g : Graph) (mixin : Mixin) (name : Reference) :
    (∃ owner target, Mixes g name owner target ∧
      g.mix mixin name = g.connect owner target mixin.relation) ∨
    (∃ owner, g.pass = some .findRelations ∧ g.top? = some owner ∧ name = .selfRef ∧
      mixin = .extending ∧ g.mix mixin name = (false, g.markSingleton owner)) ∨
    ((g.mix mixin name).1 = false ∧ Noted g (g.mix mixin name).2 ∧
      (∀ owner target, ¬ Mixes g name owner target) ∧
      ¬ (g.pass = some .findRelations ∧ g.top? ≠ none ∧ name = .selfRef ∧ mixin = .extending)) := by
  unfold mix
  by_cases hpass : g.pass = some .findRelations
  · rw [if_neg (not_not_intro hpass)]
    cases htop : g.top? with
    | none =>
        refine .inr (.inr ⟨rfl, .refl g, fun owner target h => ?_, by simp⟩)
        exact absurd (htop.symm.trans h.top) (by simp)
    | some owner =>
        by_cases hself : name = .selfRef
        · have hno : ∀ owner target, ¬ Mixes g name owner target := fun _ _ h => h.other hself
          simp only [if_pos hself]
          cases mixin with
          | extending => exact .inr (.inl ⟨owner, hpass, rfl, hself, rfl, rfl⟩)
          | including => exact .inr (.inr ⟨rfl, .refl g, hno, by simp⟩)
        · have hmark : ¬ (g.pass = some .findRelations ∧ some owner ≠ none ∧ name = .selfRef ∧
              mixin = .extending) := fun h => hself h.2.2.1
          simp only [if_neg hself]
          cases hfound : g.net.resolve name (some owner) with
          | none =>
              refine .inr (.inr ⟨rfl, noted_note g _, fun owner' target h => ?_, hmark⟩)
              have hresolved := h.resolved
              rw [Option.some.inj (h.top.symm.trans htop), hfound] at hresolved
              exact absurd hresolved (by simp)
          | some target =>
              by_cases hmodule : g.net.kindOf? target = some .moduleNode
              · simp only [if_neg (not_not_intro hmodule)]
                exact .inl ⟨owner, target, ⟨hpass, htop, hself, hfound, hmodule⟩, rfl⟩
              · simp only [if_pos hmodule]
                refine .inr (.inr ⟨trivial, noted_note g _, fun owner' other h => hmodule ?_, hmark⟩)
                have hresolved := h.resolved
                rw [Option.some.inj (h.top.symm.trans htop), hfound] at hresolved
                rw [Option.some.inj hresolved]
                exact h.targetKind
  · rw [if_pos hpass]
    exact .inr (.inr ⟨rfl, noted_note g _, fun _ _ h => hpass h.pass, fun h => hpass h.1⟩)

/-- Marking the innermost declaration changes its mark, or nothing but the journal. -/
theorem markSingleton_cases (g : Graph) (id : NodeId) :
    (g.net.kindOf? id = some .moduleNode ∧
      g.markSingleton id = { g with net := g.net.markSingleton id }) ∨
    (g.net.kindOf? id ≠ some .moduleNode ∧ Noted g (g.markSingleton id)) := by
  unfold markSingleton
  by_cases h : g.net.kindOf? id = some .moduleNode
  · rw [if_pos h]
    exact .inl ⟨h, rfl⟩
  · rw [if_neg h]
    exact .inr ⟨h, noted_note g _⟩

/-- A superclass adds its edge and no other, unless a class would be its own superclass. -/
theorem relates_inherit (g : Graph) (superclass : Reference) {a b : NodeId} {r : Relation} :
    (g.inherit superclass).2.net.Relates a b r ↔ g.net.Relates a b r ∨
      (r = .inheritance ∧ Inherits g superclass a b ∧ a ≠ b) := by
  rcases g.inherit_cases superclass with ⟨cls, target, hin, heq⟩ | ⟨_, hnoted, hno⟩
  · rw [heq]
    show (g.net.link cls target .inheritance).Relates a b r ↔ _
    rw [relates_link, admits_iff]
    constructor
    · rintro (⟨⟨hne, _⟩, rfl, rfl, rfl⟩ | h)
      · exact .inr ⟨rfl, hin, hne⟩
      · exact .inl h
    · rintro (h | ⟨rfl, hab, hne⟩)
      · exact .inr h
      · obtain rfl : a = cls := Option.some.inj (hab.top.symm.trans hin.top)
        obtain rfl : b = target := Option.some.inj (hab.resolved.symm.trans hin.resolved)
        refine .inl ⟨⟨hne, fun h => ?_, by simp⟩, rfl, rfl, rfl⟩
        have hmem := mem_targets.mpr h
        rw [hin.first] at hmem
        cases hmem
  · rw [hnoted]
    exact ⟨.inl, fun h => h.resolve_right fun h => hno a b h.2.1⟩

/-- A mixin adds its edge and no other, unless a module would be mixed into itself. -/
theorem relates_mix (g : Graph) (mixin : Mixin) (name : Reference) {a b : NodeId} {r : Relation} :
    (g.mix mixin name).2.net.Relates a b r ↔ g.net.Relates a b r ∨
      (r = mixin.relation ∧ Mixes g name a b ∧ a ≠ b) := by
  rcases g.mix_cases mixin name with ⟨owner, target, hin, heq⟩ | ⟨owner, _, _, hself, _, heq⟩ |
    ⟨_, hnoted, hno, _⟩
  · rw [heq]
    show (g.net.link owner target mixin.relation).Relates a b r ↔ _
    rw [relates_link, admits_iff]
    constructor
    · rintro (⟨⟨hne, _⟩, rfl, rfl, rfl⟩ | h)
      · exact .inr ⟨rfl, hin, hne⟩
      · exact .inl h
    · rintro (h | ⟨rfl, hab, hne⟩)
      · exact .inr h
      · obtain rfl : a = owner := Option.some.inj (hab.top.symm.trans hin.top)
        obtain rfl : b = target := Option.some.inj (hab.resolved.symm.trans hin.resolved)
        by_cases hthere : g.net.Relates a b mixin.relation
        · exact .inr hthere
        · refine .inl ⟨⟨hne, hthere, fun h => ?_⟩, rfl, rfl, rfl⟩
          cases mixin <;> cases h
  · rw [heq]
    have hmark : (g.markSingleton owner).net.Relates a b r ↔ g.net.Relates a b r := by
      rcases g.markSingleton_cases owner with ⟨_, h⟩ | ⟨_, h⟩ <;> rw [h]
      exact relates_markSingleton
    rw [hmark]
    exact ⟨.inl, fun h => h.resolve_right fun h => h.2.1.other hself⟩
  · rw [hnoted]
    exact ⟨.inl, fun h => h.resolve_right fun h => hno a b h.2.1⟩

theorem isSingleton_link (net : Network) (s t id : NodeId) (q : Relation) :
    (net.link s t q).isSingleton id = net.isSingleton id := by
  unfold isSingleton
  rw [node?_link]

theorem isSingleton_inherit (g : Graph) (superclass : Reference) (id : NodeId) :
    (g.inherit superclass).2.net.isSingleton id = g.net.isSingleton id := by
  rcases g.inherit_cases superclass with ⟨cls, target, _, heq⟩ | ⟨_, hnoted, _⟩
  · rw [heq]
    exact isSingleton_link _ _ _ _ _
  · rw [hnoted]

/-- Marking a module makes it, and no other node, a module that extends itself. -/
theorem isSingleton_markSingleton (g : Graph) (owner id : NodeId) :
    (g.markSingleton owner).net.isSingleton id = true ↔ g.net.isSingleton id = true ∨
      (owner = id ∧ g.net.kindOf? id = some .moduleNode) := by
  rcases g.markSingleton_cases owner with ⟨hmodule, heq⟩ | ⟨hother, hnoted⟩
  · rw [heq]
    show (g.net.markSingleton owner).isSingleton id = true ↔ _
    unfold isSingleton Network.markSingleton kindOf?
    rw [node?_modifyNode]
    unfold kindOf? at hmodule
    by_cases hid : id = owner
    · subst hid
      rw [if_pos rfl]
      cases hnode : g.net.node? id with
      | none => simp [hnode] at hmodule
      | some node =>
          have hkind : node.kind = .moduleNode := by simpa [hnode] using hmodule
          simp [hkind]
    · rw [if_neg hid]
      simp [Ne.symm hid]
  · rw [hnoted]
    refine ⟨.inl, fun h => h.resolve_right ?_⟩
    rintro ⟨rfl, hmodule⟩
    exact hother hmodule

/-- `extend self` marks the innermost declaration if that is a module, and no mixin marks anything
else. -/
theorem isSingleton_mix (g : Graph) (mixin : Mixin) (name : Reference) (id : NodeId) :
    (g.mix mixin name).2.net.isSingleton id = true ↔ g.net.isSingleton id = true ∨
      (g.pass = some .findRelations ∧ g.top? = some id ∧ name = .selfRef ∧ mixin = .extending ∧
        g.net.kindOf? id = some .moduleNode) := by
  rcases g.mix_cases mixin name with ⟨owner, target, hin, heq⟩ | ⟨owner, hpass, htop, rfl, rfl, heq⟩ |
    ⟨_, hnoted, _, hno⟩
  · rw [heq]
    show (g.net.link owner target mixin.relation).isSingleton id = true ↔ _
    rw [isSingleton_link]
    exact ⟨.inl, fun h => h.resolve_right fun h => hin.other h.2.2.1⟩
  · rw [heq]
    show (g.markSingleton owner).net.isSingleton id = true ↔ _
    rw [isSingleton_markSingleton]
    simp [hpass, htop]
  · rw [hnoted]
    refine ⟨.inl, fun h => h.resolve_right fun h => hno ⟨h.1, ?_, h.2.2.1, h.2.2.2.1⟩⟩
    rw [h.2.1]
    simp

/-- What superclasses and mixins leave alone: all but the other relations and the marks. -/
structure Kept (g h : Graph) : Prop extends SameSetting g h where
  lookup : ∀ path, h.net.lookup path = g.net.lookup path
  content : ∀ id, h.net.content? id = g.net.content? id
  containment : ∀ a b, h.net.Relates a b .containment ↔ g.net.Relates a b .containment

namespace Kept

theorem refl (g : Graph) : Kept g g :=
  ⟨.refl g, fun _ => rfl, fun _ => rfl, fun _ _ => Iff.rfl⟩

theorem trans (first : Kept g h) (second : Kept h k) : Kept g k where
  toSameSetting := first.toSameSetting.trans second.toSameSetting
  lookup := fun path => (second.lookup path).trans (first.lookup path)
  content := fun id => (second.content id).trans (first.content id)
  containment := fun a b => (second.containment a b).trans (first.containment a b)

theorem kindOf?_eq (kept : Kept g h) (id : NodeId) : h.net.kindOf? id = g.net.kindOf? id := by
  rw [kindOf?_eq_content?, kindOf?_eq_content?, kept.content id]

theorem of_noted (noted : Noted g h) : Kept g h := by
  refine ⟨.of_noted noted, ?_, ?_, ?_⟩ <;> rw [noted] <;> simp

theorem connect (g : Graph) {source target : NodeId} {relation : Relation}
    (other : relation ≠ .containment) : Kept g (g.connect source target relation).2 where
  scope := rfl
  pass := rfl
  provisional := rfl
  relocations := rfl
  lookup := fun path => lookup_link g.net source target relation path
  content := fun id => by
    show (g.net.link source target relation).content? id = _
    unfold content?
    rw [node?_link]
  containment := fun a b => by
    show (g.net.link source target relation).Relates a b .containment ↔ _
    rw [relates_link]
    exact ⟨fun h => h.resolve_left fun h => other h.2.2.2.symm, .inr⟩

theorem markSingleton (g : Graph) (id : NodeId) : Kept g (g.markSingleton id) := by
  rcases g.markSingleton_cases id with ⟨_, heq⟩ | ⟨_, hnoted⟩
  · rw [heq]
    exact ⟨⟨rfl, rfl, rfl, rfl⟩, fun _ => rfl, content?_markSingleton g.net id, fun _ _ => Iff.rfl⟩
  · exact .of_noted hnoted

theorem inherit (g : Graph) (superclass : Reference) : Kept g (g.inherit superclass).2 := by
  rcases g.inherit_cases superclass with ⟨cls, target, _, heq⟩ | ⟨_, hnoted, _⟩
  · rw [heq]
    exact .connect g (by simp)
  · exact .of_noted hnoted

theorem mix (g : Graph) (mixin : Mixin) (target : Reference) : Kept g (g.mix mixin target).2 := by
  rcases g.mix_cases mixin target with ⟨owner, found, _, heq⟩ | ⟨owner, _, _, _, _, heq⟩ |
    ⟨_, hnoted, _⟩
  · rw [heq]
    refine .connect g ?_
    cases mixin <;> simp [Mixin.relation]
  · rw [heq]
    exact .markSingleton g owner
  · exact .of_noted hnoted

theorem inheritFrom (g : Graph) (superclass : Option Reference) :
    Kept g (g.inheritFrom superclass) := by
  cases superclass with
  | none => exact .refl g
  | some superclass => exact .inherit g superclass

theorem mixAll (g : Graph) (mixin : Mixin) (targets : List Reference) :
    Kept g (g.mixAll mixin targets) := by
  unfold Graph.mixAll
  induction targets generalizing g with
  | nil => exact .refl g
  | cons target rest ih => exact (Kept.mix g mixin target).trans (ih _)

end Kept

end Graph

end ClassAtlas
