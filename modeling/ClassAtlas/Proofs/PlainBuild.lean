import ClassAtlas.Proofs.DeclaredPaths
import ClassAtlas.Proofs.PlainNames

/-!
# What a build of plain declarations is

If every declared name is plain, the graph that two passes build can be read off the statements of the
files. The first pass settles which paths there are and their kinds, so that in the second one a
reference denotes the same thing whenever it is met. The second pass then adds what the statements
say: a mixin counts wherever it stands, and of the superclasses of a class the first that denotes
another class.
-/

namespace ClassAtlas

/-! ## Relations read off the statements -/

/-- The first member of a list that leads anywhere leads to `target`. -/
def FirstHit {α β : Type} (hit : α → β → Prop) (list : List α) (target : β) : Prop :=
  ∃ earlier member later, list = earlier ++ member :: later ∧ hit member target ∧
    ∀ other ∈ earlier, ∀ result, ¬ hit other result

section FirstHit

variable {α β : Type} {hit : α → β → Prop} {target : β}

theorem not_firstHit_nil : ¬ FirstHit hit [] target := by
  rintro ⟨earlier, member, later, h, _⟩
  simp at h

theorem firstHit_cons {member : α} {rest : List α} :
    FirstHit hit (member :: rest) target ↔
      hit member target ∨ ((∀ result, ¬ hit member result) ∧ FirstHit hit rest target) := by
  constructor
  · rintro ⟨earlier, found, later, heq, hfound, hnone⟩
    cases earlier with
    | nil =>
        obtain ⟨rfl, _⟩ := List.cons.inj heq
        exact .inl hfound
    | cons first others =>
        obtain ⟨rfl, hrest⟩ := List.cons.inj heq
        refine .inr ⟨hnone member List.mem_cons_self, others, found, later, hrest, hfound, ?_⟩
        exact fun other h => hnone other (List.mem_cons_of_mem _ h)
  · rintro (h | ⟨hfirst, earlier, found, later, rfl, hfound, hnone⟩)
    · exact ⟨[], member, rest, rfl, h, by simp⟩
    · refine ⟨member :: earlier, found, later, rfl, hfound, fun other hother => ?_⟩
      rcases List.mem_cons.mp hother with rfl | h
      · exact hfirst
      · exact hnone other h

theorem firstHit_singleton {member : α} : FirstHit hit [member] target ↔ hit member target := by
  rw [firstHit_cons]
  exact ⟨fun h => h.resolve_right fun h => not_firstHit_nil h.2, .inl⟩

/-- The second of two lists decides only if the first leads nowhere. -/
theorem firstHit_append {first second : List α} :
    FirstHit hit (first ++ second) target ↔
      FirstHit hit first target ∨
        ((∀ result, ¬ FirstHit hit first result) ∧ FirstHit hit second target) := by
  induction first with
  | nil =>
      rw [List.nil_append]
      exact ⟨fun h => .inr ⟨fun _ => not_firstHit_nil, h⟩,
        fun h => h.elim (fun h => absurd h not_firstHit_nil) fun h => h.2⟩
  | cons member rest ih =>
      rw [List.cons_append, firstHit_cons, ih, firstHit_cons]
      constructor
      · rintro (h | ⟨hnone, h | ⟨hrest, h⟩⟩)
        · exact .inl (.inl h)
        · exact .inl (.inr ⟨hnone, h⟩)
        · refine .inr ⟨fun result hresult => ?_, h⟩
          rcases firstHit_cons.mp hresult with h | ⟨_, h⟩
          · exact hnone result h
          · exact hrest result h
      · rintro ((h | ⟨hnone, h⟩) | ⟨hnone, h⟩)
        · exact .inl h
        · exact .inr ⟨hnone, .inl h⟩
        · refine .inr ⟨fun result hresult => ?_, .inr ⟨fun result hresult => ?_, h⟩⟩
          · exact hnone result (firstHit_cons.mpr (.inl hresult))
          · by_cases hmember : ∃ other, hit member other
            · obtain ⟨other, hother⟩ := hmember
              exact hnone other (firstHit_cons.mpr (.inl hother))
            · exact hnone result (firstHit_cons.mpr (.inr ⟨fun o ho => hmember ⟨o, ho⟩, hresult⟩))

end FirstHit

theorem Mixin.relation_inj {first second : Mixin} (h : first.relation = second.relation) :
    first = second := by
  cases first <;> cases second <;> first | rfl | cases h

theorem Mixin.relation_ne (mixin : Mixin) :
    mixin.relation ≠ .inheritance ∧ mixin.relation ≠ .containment := by
  cases mixin <;> exact ⟨by decide, by decide⟩

/-- The mixin target, written in a body of `owner`, denotes another node, a module. -/
def MixesIn (kinds : Path → Option Kind) (owner : Path) (reference : Reference) (target : Path) : Prop :=
  kinds owner ≠ none ∧ Denotes (fun path => kinds path ≠ none) owner reference target ∧
    kinds target = some .moduleNode ∧ target ≠ owner

/-- The statement declares the class `cls` with a superclass that denotes another class, looked up from
around the class. -/
def DerivesFrom (kinds : Path → Option Kind) (cls : Path) (statement : Statement) (target : Path) : Prop :=
  ∃ reference, statement = .declaration cls .classNode (some reference) ∧
    kinds cls = some .classNode ∧
    Denotes (fun path => kinds path ≠ none) ⟨cls.segments.dropLast⟩ reference target ∧
    kinds target = some .classNode ∧ target ≠ cls

namespace Network

variable {net between after : Network} {kinds : Path → Option Kind}

/-- The kind of the node that a path names. -/
def kindAt (net : Network) (path : Path) : Option Kind :=
  (net.nodeAt path).map Node.kind

/-- An edge of this relation leads between the nodes of two paths. -/
def Tied (net : Network) (source target : Path) (relation : Relation) : Prop :=
  ∃ a b, net.lookup source = some a ∧ net.lookup target = some b ∧ net.Relates a b relation

/-- The path names a module that extends itself. -/
def SingletonAt (net : Network) (path : Path) : Prop :=
  ∃ id, net.lookup path = some id ∧ net.isSingleton id = true

theorem kindAt_of_lookup {path : Path} {id : NodeId} (h : net.lookup path = some id) :
    net.kindAt path = net.kindOf? id := by
  unfold kindAt nodeAt
  rw [h, Option.bind_some]
  rfl

theorem Sound.known_iff_kindAt (sound : net.Sound) {path : Path} :
    net.Known path ↔ net.kindAt path ≠ none := by
  unfold Known kindAt nodeAt
  cases hfound : net.lookup path with
  | none => simp
  | some id =>
      obtain ⟨node, hnode⟩ := live_iff.mp (sound.live_of_lookup hfound)
      simp [hnode]

theorem Layered.tied_containment_iff (layered : Layered net) {p q : Path} :
    net.Tied p q .containment ↔
      net.Known q ∧ 2 ≤ q.segments.length ∧ p = ⟨q.segments.dropLast⟩ := by
  have hsound := layered.sound
  constructor
  · rintro ⟨a, b, ha, hb, h⟩
    obtain ⟨name, hchild⟩ := layered.follows a b h
    rw [hsound.pathOf_of_lookup ha, hsound.pathOf_of_lookup hb] at hchild
    have hlong : p.segments ≠ [] := by
      intro hnil
      exact layered.rooted ⟨a, (congrArg Path.mk hnil : p = ⟨[]⟩) ▸ ha⟩
    have hpos := List.length_pos_iff.mpr hlong
    refine ⟨⟨b, hb⟩, ?_, ?_⟩ <;> rw [hchild]
    · simp
      omega
    · rw [Path.segments_child, List.dropLast_concat]
  · rintro ⟨⟨b, hb⟩, hlong, rfl⟩
    have hnil : q.segments ≠ [] := by
      intro h
      rw [h] at hlong
      simp at hlong
    have hchild : q = Path.child ⟨q.segments.dropLast⟩ (q.segments.getLast hnil) :=
      congrArg Path.mk (List.dropLast_concat_getLast hnil).symm
    have hinside : (⟨q.segments.dropLast⟩ : Path) ≠ ⟨[]⟩ := by
      intro h
      have hlength := congrArg (fun path => path.segments.length) h
      simp at hlength
      omega
    have hinner := hb
    rw [hchild] at hinner
    obtain ⟨a, ha⟩ := layered.enclosed _ _ ⟨b, hinner⟩ hinside
    exact ⟨a, b, ha, hb, layered.contained _ _ a b ha hinner⟩

/-- What the second pass does with statements, given the kinds of all paths. -/
structure Related (kinds : Path → Option Kind) (net after : Network) (statements : List Statement) :
    Prop where
  sound : after.Sound
  lookup : ∀ path, after.lookup path = net.lookup path
  content : ∀ id, after.content? id = net.content? id
  containment : ∀ a b, after.Relates a b .containment ↔ net.Relates a b .containment
  singleton : ∀ path, after.SingletonAt path ↔ net.SingletonAt path ∨
    (kinds path = some .moduleNode ∧ .mixing path .extending .selfRef ∈ statements)
  mixed : ∀ owner target (mixin : Mixin), after.Tied owner target mixin.relation ↔
    net.Tied owner target mixin.relation ∨
      ∃ reference, .mixing owner mixin reference ∈ statements ∧ MixesIn kinds owner reference target
  inherited : ∀ cls target, after.Tied cls target .inheritance ↔
    net.Tied cls target .inheritance ∨
      ((∀ other, ¬ net.Tied cls other .inheritance) ∧ FirstHit (DerivesFrom kinds cls) statements target)

namespace Related

theorem layered {statements : List Statement} (related : Related kinds net after statements)
    (layered : Layered net) : Layered after := by
  have hknown : ∀ path, after.Known path ↔ net.Known path := by
    intro path
    unfold Known
    rw [related.lookup]
  have hpathOf : ∀ id, after.pathOf id = net.pathOf id := by
    intro id
    rw [pathOf_eq_content?, pathOf_eq_content?, related.content]
  refine ⟨related.sound, ?_, ?_, ?_, ?_⟩
  · rw [hknown]
    exact layered.rooted
  · intro outer name h hne
    rw [hknown] at h ⊢
    exact layered.enclosed outer name h hne
  · intro a b hab
    rw [hpathOf, hpathOf]
    exact layered.follows a b ((related.containment a b).mp hab)
  · intro outer name a b ha hb
    rw [related.lookup] at ha hb
    exact (related.containment a b).mpr (layered.contained outer name a b ha hb)

theorem kindAt_eq {statements : List Statement} (related : Related kinds net after statements)
    (path : Path) : after.kindAt path = net.kindAt path := by
  have hkind : ∀ (net : Network) id, (net.node? id).map Node.kind = (net.content? id).map Node.kind := by
    intro net id
    unfold content?
    cases net.node? id <;> rfl
  unfold kindAt nodeAt
  rw [related.lookup]
  cases net.lookup path with
  | none => rfl
  | some id =>
      rw [Option.bind_some, Option.bind_some, hkind, hkind, related.content]

/-- Statements that say nothing to the second pass. -/
theorem of_idle {statements : List Statement} (sound : net.Sound)
    (mixin : ∀ owner mixin reference, .mixing owner mixin reference ∉ statements)
    (superclass : ∀ cls kind reference, .declaration cls kind (some reference) ∉ statements) :
    Related kinds net net statements where
  sound := sound
  lookup := fun _ => rfl
  content := fun _ => rfl
  containment := fun _ _ => Iff.rfl
  singleton := fun path => ⟨.inl, fun h => h.resolve_right fun h => mixin _ _ _ h.2⟩
  mixed := fun owner target kind =>
    ⟨.inl, fun h => h.resolve_right fun ⟨reference, h, _⟩ => mixin _ _ _ h⟩
  inherited := fun cls target => by
    refine ⟨.inl, fun h => h.resolve_right ?_⟩
    rintro ⟨_, earlier, member, later, rfl, ⟨reference, rfl, _⟩, _⟩
    exact superclass cls .classNode reference (List.mem_append_right _ List.mem_cons_self)

theorem trans {first second : List Statement} (before : Related kinds net between first)
    (later : Related kinds between after second) : Related kinds net after (first ++ second) where
  sound := later.sound
  lookup := fun path => (later.lookup path).trans (before.lookup path)
  content := fun id => (later.content id).trans (before.content id)
  containment := fun a b => (later.containment a b).trans (before.containment a b)
  singleton := fun path => by
    rw [later.singleton, before.singleton, List.mem_append, or_assoc, and_or_left]
  mixed := fun owner target mixin => by
    rw [later.mixed, before.mixed, or_assoc]
    simp only [List.mem_append, or_and_right, exists_or]
  inherited := fun cls target => by
    rw [later.inherited, before.inherited, firstHit_append, or_assoc, and_or_left]
    refine or_congr_right (or_congr_right ?_)
    -- between the two lists there is no superclass if there was none before and the first gave none
    have hnone : (∀ other, ¬ between.Tied cls other .inheritance) ↔
        (∀ other, ¬ net.Tied cls other .inheritance) ∧
          ∀ other, ¬ FirstHit (DerivesFrom kinds cls) first other := by
      constructor
      · intro h
        have hbefore : ∀ other, ¬ net.Tied cls other .inheritance := fun other hother =>
          h other ((before.inherited cls other).mpr (.inl hother))
        exact ⟨hbefore, fun other hother => h other ((before.inherited cls other).mpr
          (.inr ⟨hbefore, hother⟩))⟩
      · rintro ⟨hbefore, hfirst⟩ other hother
        rcases (before.inherited cls other).mp hother with h | ⟨_, h⟩
        · exact hbefore other h
        · exact hfirst other h
    rw [hnone, and_assoc]

end Related

end Network

namespace Graph

open Network

variable {g inner : Graph} {kinds : Path → Option Kind} {outer : Path} {name : String}

/-! ## The second pass -/

/-- The second pass stands in the body of `outer`, and the paths have their kinds. -/
structure Relating (kinds : Path → Option Kind) (g : Graph) (outer : Path) : Prop
    extends Ready g outer where
  pass : g.pass = some .findRelations
  kinds : ∀ path, g.net.kindAt path = kinds path

namespace Relating

theorem known_eq (relating : Relating kinds g outer) :
    (fun path => kinds path ≠ none) = g.net.Known := by
  funext path
  rw [← relating.kinds, relating.layered.sound.known_iff_kindAt]

theorem kindOf?_eq (relating : Relating kinds g outer) {path : Path} {id : NodeId}
    (h : g.net.lookup path = some id) : g.net.kindOf? id = kinds path := by
  rw [← relating.kinds, kindAt_of_lookup h]

theorem consistent (relating : Relating kinds g outer) : Consistent g.scope.length g :=
  ⟨relating.layered.sound, relating.scopes.live relating.layered.sound, Nat.le_refl _⟩

/-- What a superclass is tested for is what its statement says. -/
theorem inherits_iff (relating : Relating kinds g (outer.child name)) (reference : Reference)
    {cls b : NodeId} (hcls : g.net.lookup (outer.child name) = some cls) :
    (Inherits g reference cls b ∧ cls ≠ b) ↔
      (∀ c, ¬ g.net.Relates cls c .inheritance) ∧ ∃ target, g.net.lookup target = some b ∧
        DerivesFrom kinds (outer.child name)
          (.declaration (outer.child name) .classNode (some reference)) target := by
  have hsound := relating.layered.sound
  obtain ⟨id, rest, hscope, hid, hrest⟩ := relating.scopes.child
  have houter : (⟨(outer.child name).segments.dropLast⟩ : Path) = outer := by
    rw [Path.segments_child, List.dropLast_concat]
  have horigin : g.superclassOrigin = rest.head? := by
    unfold superclassOrigin
    rw [hscope, List.tail_cons]
  constructor
  · rintro ⟨h, hne⟩
    have hresolved := h.resolved
    rw [horigin, relating.layered.resolve_iff hrest] at hresolved
    obtain ⟨target, hdenotes, htarget⟩ := hresolved
    refine ⟨fun c hc => ?_, target, htarget, reference, rfl, ?_, ?_, ?_, ?_⟩
    · have hmem := mem_targets.mpr hc
      rw [h.first] at hmem
      cases hmem
    · rw [← relating.kindOf?_eq hcls]
      exact h.kind
    · rw [relating.known_eq, houter]
      exact hdenotes
    · rw [← relating.kindOf?_eq htarget]
      exact h.targetKind
    · rintro rfl
      exact hne (Option.some.inj (hcls.symm.trans htarget))
  · rintro ⟨hfirst, target, htarget, reference', hstatement, hclass, hdenotes, htargetKind, hne⟩
    cases hstatement
    rw [relating.known_eq, houter] at hdenotes
    refine ⟨⟨relating.pass, relating.top?_eq.trans hcls, ?_, ?_, ?_, ?_⟩, ?_⟩
    · rw [relating.kindOf?_eq hcls]
      exact hclass
    · rw [horigin]
      exact (relating.layered.resolve_iff hrest reference).mpr ⟨target, hdenotes, htarget⟩
    · rw [relating.kindOf?_eq htarget]
      exact htargetKind
    · exact List.eq_nil_iff_forall_not_mem.mpr fun c hc => hfirst c (mem_targets.mp hc)
    · rintro rfl
      exact hne (hsound.path_inj htarget hcls)

/-- What a mixin is tested for is what its statement says. -/
theorem mixes_iff (relating : Relating kinds g outer) (reference : Reference) {a b : NodeId} :
    (Mixes g reference a b ∧ a ≠ b) ↔ g.net.lookup outer = some a ∧
      ∃ target, g.net.lookup target = some b ∧ MixesIn kinds outer reference target := by
  have hsound := relating.layered.sound
  have htop := relating.top?_eq
  have hresolve : ∀ target, g.net.lookup outer = some a →
      (g.net.resolve reference (some a) = some target ↔
        g.net.resolve reference g.scope.head? = some target) := by
    intro target ha
    rw [← ha, ← htop]
    rfl
  constructor
  · rintro ⟨h, hne⟩
    have ha := htop.symm.trans h.top
    have hresolved := (hresolve b ha).mp h.resolved
    rw [relating.layered.resolve_iff relating.scopes] at hresolved
    obtain ⟨target, hdenotes, htarget⟩ := hresolved
    refine ⟨ha, target, htarget, ?_, ?_, ?_, ?_⟩
    · rw [← relating.kinds]
      exact hsound.known_iff_kindAt.mp ⟨a, ha⟩
    · rw [relating.known_eq]
      exact hdenotes
    · rw [← relating.kindOf?_eq htarget]
      exact h.targetKind
    · rintro rfl
      exact hne (Option.some.inj (ha.symm.trans htarget))
  · rintro ⟨ha, target, htarget, _, hdenotes, hmodule, hne⟩
    rw [relating.known_eq] at hdenotes
    refine ⟨⟨relating.pass, htop.trans ha, ?_, ?_, ?_⟩, ?_⟩
    · rintro rfl
      exact hdenotes
    · rw [hresolve b ha]
      exact (relating.layered.resolve_iff relating.scopes reference).mpr ⟨target, hdenotes, htarget⟩
    · rw [relating.kindOf?_eq htarget]
      exact hmodule
    · rintro rfl
      exact hne (hsound.path_inj htarget ha)

theorem related_inherit (relating : Relating kinds g (outer.child name)) (reference : Reference) :
    Related kinds g.net (g.inherit reference).2.net
      [.declaration (outer.child name) .classNode (some reference)] := by
  have hkept := Kept.inherit g reference
  have hsound := relating.layered.sound
  obtain ⟨cls, _, _, hcls, _⟩ := relating.scopes.child
  have htied : ∀ p q r, (g.inherit reference).2.net.Tied p q r ↔
      ∃ a b, g.net.lookup p = some a ∧ g.net.lookup q = some b ∧ (g.net.Relates a b r ∨
        (r = .inheritance ∧ Inherits g reference a b ∧ a ≠ b)) := by
    intro p q r
    unfold Tied
    simp only [hkept.lookup, relates_inherit]
  refine ⟨(relating.consistent.inherit reference).sound, hkept.lookup, hkept.content,
    hkept.containment, ?_, ?_, ?_⟩
  · intro path
    unfold SingletonAt
    simp only [hkept.lookup, isSingleton_inherit]
    simp
  · intro owner target mixin
    rw [htied]
    simp [mixin.relation_ne.1, Tied]
  · intro p q
    rw [firstHit_singleton, htied]
    constructor
    · rintro ⟨a, b, ha, hb, h | ⟨_, hin, hne⟩⟩
      · exact .inl ⟨a, b, ha, hb, h⟩
      · -- the innermost declaration gets its superclass
        obtain rfl : a = cls :=
          Option.some.inj ((relating.top?_eq.symm.trans hin.top).symm.trans hcls)
        obtain rfl := hsound.path_inj ha hcls
        obtain ⟨hnone, target, htarget, hderives⟩ :=
          (relating.inherits_iff reference hcls).mp ⟨hin, hne⟩
        obtain rfl := hsound.path_inj hb htarget
        refine .inr ⟨?_, hderives⟩
        rintro other ⟨c, d, hc, _, h⟩
        rw [hcls] at hc
        exact hnone d (Option.some.inj hc ▸ h)
    · rintro (⟨a, b, ha, hb, h⟩ | ⟨hnone, hderives⟩)
      · exact ⟨a, b, ha, hb, .inl h⟩
      · obtain rfl : outer.child name = p := by
          obtain ⟨_, hstatement, _⟩ := hderives
          cases hstatement
          rfl
        obtain ⟨b, hb⟩ : g.net.Known q := by
          obtain ⟨_, _, _, hdenotes, _⟩ := hderives
          rw [relating.known_eq] at hdenotes
          exact hdenotes.known
        have hfree : ∀ c, ¬ g.net.Relates cls c .inheritance := fun c hc =>
          hnone (g.net.pathOf c) ⟨cls, c, hcls, hsound.lookup_pathOf (hsound.ends _ _ _ hc).2, hc⟩
        obtain ⟨hin, hne⟩ := (relating.inherits_iff reference hcls).mpr ⟨hfree, q, hb, hderives⟩
        exact ⟨cls, b, hcls, hb, .inr ⟨rfl, hin, hne⟩⟩

theorem related_mix (relating : Relating kinds g outer) (mixin : Mixin) (reference : Reference) :
    Related kinds g.net (g.mix mixin reference).2.net [.mixing outer mixin reference] := by
  have hkept := Kept.mix g mixin reference
  have hsound := relating.layered.sound
  have htied : ∀ p q r, (g.mix mixin reference).2.net.Tied p q r ↔
      ∃ a b, g.net.lookup p = some a ∧ g.net.lookup q = some b ∧ (g.net.Relates a b r ∨
        (r = mixin.relation ∧ Mixes g reference a b ∧ a ≠ b)) := by
    intro p q r
    unfold Tied
    simp only [hkept.lookup, relates_mix]
  refine ⟨(relating.consistent.mix mixin reference).sound, hkept.lookup, hkept.content,
    hkept.containment, ?_, ?_, ?_⟩
  · intro path
    unfold SingletonAt
    simp only [hkept.lookup, isSingleton_mix, List.mem_singleton, Statement.mixing.injEq]
    constructor
    · rintro ⟨id, hid, h | ⟨_, htop, rfl, rfl, hmodule⟩⟩
      · exact .inl ⟨id, hid, h⟩
      · rw [relating.kindOf?_eq hid] at hmodule
        exact .inr ⟨hmodule, hsound.path_inj hid (relating.top?_eq.symm.trans htop), rfl, rfl⟩
    · rintro (⟨id, hid, h⟩ | ⟨hmodule, rfl, rfl, rfl⟩)
      · exact ⟨id, hid, .inl h⟩
      · obtain ⟨id, hid⟩ : g.net.Known path := by
          rw [← relating.known_eq]
          simp [hmodule]
        refine ⟨id, hid, .inr ⟨relating.pass, relating.top?_eq.trans hid, rfl, rfl, ?_⟩⟩
        rw [relating.kindOf?_eq hid]
        exact hmodule
  · intro owner target other
    rw [htied]
    simp only [List.mem_singleton, Statement.mixing.injEq]
    constructor
    · rintro ⟨a, b, ha, hb, h | ⟨hrelation, hmixes⟩⟩
      · exact .inl ⟨a, b, ha, hb, h⟩
      · obtain ⟨houter, found, hfound, hin⟩ := (relating.mixes_iff reference).mp hmixes
        obtain rfl := hsound.path_inj ha houter
        obtain rfl := hsound.path_inj hb hfound
        exact .inr ⟨reference, ⟨rfl, Mixin.relation_inj hrelation, rfl⟩, hin⟩
    · rintro (⟨a, b, ha, hb, h⟩ | ⟨_, ⟨rfl, rfl, rfl⟩, hin⟩)
      · exact ⟨a, b, ha, hb, .inl h⟩
      · obtain ⟨a, ha⟩ : g.net.Known owner := by
          rw [← relating.known_eq]
          exact hin.1
        obtain ⟨b, hb⟩ : g.net.Known target := by
          have hdenotes := hin.2.1
          rw [relating.known_eq] at hdenotes
          exact hdenotes.known
        exact ⟨a, b, ha, hb, .inr ⟨rfl, (relating.mixes_iff _).mpr ⟨ha, target, hb, hin⟩⟩⟩
  · intro cls target
    rw [firstHit_singleton, htied]
    simp only [mixin.relation_ne.1.symm, false_and, or_false]
    refine ⟨.inl, fun h => h.resolve_right ?_⟩
    rintro ⟨_, _, hstatement, _⟩
    cases hstatement

/-- The second pass goes on where it stood. -/
theorem next {h : Graph} {statements : List Statement} (relating : Relating kinds g outer)
    (setting : SameSetting g h) (related : Related kinds g.net h.net statements) :
    Relating kinds h outer where
  layered := related.layered relating.layered
  scopes := by
    rw [setting.scope]
    exact relating.scopes.mono fun path id hid => (related.lookup path).trans hid
  settled := setting.provisional.trans relating.settled
  pass := setting.pass.trans relating.pass
  kinds := fun path => (related.kindAt_eq path).trans (relating.kinds path)

theorem related_inheritFrom (relating : Relating kinds g (outer.child name))
    (superclass : Option Reference) :
    Related kinds g.net (g.inheritFrom superclass).net
      [.declaration (outer.child name) .classNode superclass] := by
  cases superclass with
  | none => exact .of_idle relating.layered.sound (by simp) (by simp)
  | some reference => exact relating.related_inherit reference

theorem related_mixAll (relating : Relating kinds g outer) (mixin : Mixin)
    (targets : List Reference) :
    Related kinds g.net (g.mixAll mixin targets).net (targets.map (.mixing outer mixin)) := by
  induction targets generalizing g with
  | nil => exact .of_idle relating.layered.sound (by simp) (by simp)
  | cons target rest ih =>
      have hfirst := relating.related_mix mixin target
      exact hfirst.trans (ih (relating.next (Kept.mix g mixin target).toSameSetting hfirst))

/-- A declaration of a path that has its node changes nothing but the scope. -/
theorem net_enter {kind : Kind} {id : NodeId} (relating : Relating kinds g outer)
    (entered : Entered g inner kind (outer.child name) (g.net.lookup outer) id)
    (declared : kinds (outer.child name) ≠ none) : inner.net = g.net := by
  rcases entered.net with ⟨hfound, hnet⟩ | ⟨hnone, _⟩
  · rw [hnet]
    cases houter : g.net.lookup outer with
    | none => rfl
    | some around =>
        -- the node lies in its container already, so the edge is refused
        have hthere := relating.layered.contained outer name around id houter hfound
        show g.net.link around id .containment = g.net
        unfold link
        rw [if_neg fun h => (admits_iff.mp h).2.1 hthere]
  · rw [← relating.kinds, ← relating.layered.sound.known_iff_kindAt] at declared
    obtain ⟨found, hfound⟩ := declared
    rw [hnone] at hfound
    cases hfound

/-- A declaration in the second pass, with a body that is walked over. -/
theorem related_declare {reference : Reference} {body : Graph → Graph} {statements : List Statement}
    (relating : Relating kinds g outer) (plain : reference.isPlain = true) (kind : Kind)
    (declared : kinds (outer.join reference.segments) ≠ none)
    (inside : ∀ inner, Relating kinds inner (outer.join reference.segments) →
      SameSetting inner (body inner) ∧ Related kinds inner.net (body inner).net statements) :
    SameSetting g (g.declare kind reference body).2 ∧
      Related kinds g.net (g.declare kind reference body).2.net statements := by
  obtain ⟨name, rfl⟩ := Reference.eq_of_isPlain plain
  obtain ⟨inner, id, hopen, entered, hsettled, hrelocations⟩ := relating.enter kind name
  have hsame := relating.net_enter entered declared
  have hinner : Relating kinds inner (outer.child name) := by
    refine ⟨relating.inside entered hsettled, entered.pass.trans relating.pass, fun path => ?_⟩
    rw [hsame]
    exact relating.kinds path
  obtain ⟨hsetting, hrelated⟩ := inside inner hinner
  obtain ⟨hdeclared, hnet⟩ := sameSetting_declare hopen entered hsetting
    (hsettled.trans relating.settled.symm) hrelocations
  refine ⟨hdeclared, ?_⟩
  rw [hnet, ← hsame]
  exact hrelated

end Relating

/-- The walk of the second pass over plain declarations adds what they say. -/
theorem related_replayItems (items : List Item) (plain : Item.allPlain items = true)
    (relating : Relating kinds g outer)
    (declared : ∀ path, Declared (Item.allStatements outer items) path → kinds path ≠ none) :
    SameSetting g (replayItems true items g) ∧
      Related kinds g.net (replayItems true items g).net (Item.allStatements outer items) := by
  suffices hall : (∀ item : Item, item.isPlain = true → ∀ g outer, Relating kinds g outer →
      (∀ path, Declared (item.statements outer) path → kinds path ≠ none) →
      SameSetting g (replayItem true item g) ∧
        Related kinds g.net (replayItem true item g).net (item.statements outer)) ∧
      ∀ items, Item.allPlain items = true → ∀ g outer, Relating kinds g outer →
        (∀ path, Declared (Item.allStatements outer items) path → kinds path ≠ none) →
        SameSetting g (replayItems true items g) ∧
          Related kinds g.net (replayItems true items g).net (Item.allStatements outer items) from
    hall.2 items plain g outer relating declared
  apply Item.induct
  case classDecl =>
    intro name superclass body ih hplain g outer relating hdeclared
    obtain ⟨hname, hbody⟩ := Bool.and_eq_true_iff.mp hplain
    refine relating.related_declare hname .classNode (hdeclared _ ⟨_, _, List.mem_cons_self⟩) ?_
    intro inner hinner
    obtain ⟨last, rfl⟩ := Reference.eq_of_isPlain hname
    -- the superclass comes first, then the body
    have hsuper := hinner.related_inheritFrom superclass
    have hsetting := (Kept.inheritFrom inner superclass).toSameSetting
    obtain ⟨hsetting', hrelated⟩ := ih hbody _ _ (hinner.next hsetting hsuper)
      fun path h => hdeclared path (declared_cons.mpr (.inr h))
    exact ⟨hsetting.trans hsetting', hsuper.trans hrelated⟩
  case moduleDecl =>
    intro name body ih hplain g outer relating hdeclared
    obtain ⟨hname, hbody⟩ := Bool.and_eq_true_iff.mp hplain
    refine relating.related_declare hname .moduleNode (hdeclared _ ⟨_, _, List.mem_cons_self⟩) ?_
    intro inner hinner
    obtain ⟨hsetting, hrelated⟩ := ih hbody _ _ hinner
      fun path h => hdeclared path (declared_cons.mpr (.inr h))
    have hidle : Related kinds inner.net inner.net
        [.declaration (outer.join name.segments) .moduleNode none] :=
      .of_idle hinner.layered.sound (by simp) (by simp)
    exact ⟨hsetting, hidle.trans hrelated⟩
  case mixing =>
    intro mixin targets _ g outer relating _
    exact ⟨(Kept.mixAll g mixin targets).toSameSetting, relating.related_mixAll mixin targets⟩
  case nil =>
    intro _ g outer relating _
    exact ⟨.refl g, .of_idle relating.layered.sound (by simp [Item.allStatements])
      (by simp [Item.allStatements])⟩
  case cons =>
    intro item rest ihItem ihRest hplain g outer relating hdeclared
    obtain ⟨hitem, hrest⟩ := Bool.and_eq_true_iff.mp hplain
    obtain ⟨hsetting, hrelated⟩ := ihItem hitem g outer relating
      fun path h => hdeclared path (declared_append.mpr (.inl h))
    obtain ⟨hsetting', hrelated'⟩ := ihRest hrest _ outer (relating.next hsetting hrelated)
      fun path h => hdeclared path (declared_append.mpr (.inr h))
    exact ⟨hsetting.trans hsetting', hrelated.trans hrelated'⟩

theorem related_foldl_replay (files : List (List Item))
    (plain : ∀ file ∈ files, Item.allPlain file = true) (relating : Relating kinds g ⟨[]⟩)
    (declared : ∀ path, Declared (files.flatMap (Item.allStatements ⟨[]⟩)) path →
      kinds path ≠ none) :
    SameSetting g (files.foldl replay g) ∧
      Related kinds g.net (files.foldl replay g).net (files.flatMap (Item.allStatements ⟨[]⟩)) := by
  induction files generalizing g with
  | nil => exact ⟨.refl g, .of_idle relating.layered.sound (by simp) (by simp)⟩
  | cons file rest ih =>
      rw [List.flatMap_cons] at declared ⊢
      obtain ⟨hsetting, hrelated⟩ := related_replayItems file (plain file List.mem_cons_self) relating
        fun path h => declared path (declared_append.mpr (.inl h))
      have hreplay : g.replay file = replayItems true file g := by
        unfold replay
        rw [relating.pass]
        rfl
      rw [← hreplay] at hsetting hrelated
      obtain ⟨hsetting', hrelated'⟩ := ih (fun other h => plain other (List.mem_cons_of_mem _ h))
        (relating.next hsetting hrelated)
        fun path h => declared path (declared_append.mpr (.inr h))
      exact ⟨hsetting.trans hsetting', hrelated.trans hrelated'⟩

/-! ## Both passes -/

/-- The first pass ends with all paths known, and the second starts from there. -/
theorem relating_secondStart {files : List (List Item)}
    (plain : ∀ file ∈ files, Item.allPlain file = true) :
    Recorded {} (secondStart files).net (files.flatMap (Item.allStatements ⟨[]⟩)) ∧
      Relating (kindIn (files.flatMap (Item.allStatements ⟨[]⟩))) (secondStart files) ⟨[]⟩ ∧
      (secondStart files).relocations = [] := by
  have hready : Ready (Graph.empty.beginPass .findNodes) ⟨[]⟩ := ⟨layered_empty, .top, rfl⟩
  obtain ⟨hsetting, hrecorded⟩ := recorded_foldl_replay files plain hready rfl
  obtain ⟨journal, heq⟩ := secondStart_eq files
  have hnet : (secondStart files).net = (firstWalk files).net := by rw [heq]
  refine ⟨hnet ▸ hrecorded, ⟨⟨hnet ▸ hrecorded.layered, ?_, ?_⟩, ?_, fun path => ?_⟩, ?_⟩
  · rw [heq]
    exact .top
  · rw [heq]
    exact hsetting.provisional
  · rw [heq]
  · unfold kindAt
    rw [hnet]
    show ((files.foldl replay (Graph.empty.beginPass .findNodes)).net.nodeAt path).map Node.kind = _
    rw [hrecorded.nodeAt]
    show ((none : Option Node).or _).map Node.kind = _
    rw [Option.none_or, Option.map_map]
    exact Option.map_id'
  · rw [heq]
    exact hsetting.relocations

/-- The node of every path is the one that the statements say. -/
theorem nodeAt_eq_nodeIn {net after : Network} {statements : List Statement}
    (recorded : Recorded {} net statements)
    (related : Related (kindIn statements) net after statements) (path : Path) :
    after.nodeAt path = nodeIn statements path := by
  have hbefore : net.nodeAt path = (kindIn statements path).map fun kind => { path, kind } := by
    rw [recorded.nodeAt]
    exact Option.none_or
  have hcontent : (after.nodeAt path).map (fun node => { node with singleton := false }) =
      (net.nodeAt path).map fun node => { node with singleton := false } := by
    unfold Network.nodeAt
    rw [related.lookup]
    cases net.lookup path with
    | none => rfl
    | some id => exact related.content id
  have hmarked : ∀ net : Network, net.SingletonAt path ↔
      ∃ node, net.nodeAt path = some node ∧ node.singleton = true := by
    intro net
    unfold SingletonAt Network.nodeAt isSingleton
    cases net.lookup path with
    | none => simp
    | some id => cases hnode : net.node? id <;> simp [hnode]
  have hmark := related.singleton path
  rw [hmarked, hmarked, hbefore] at hmark
  rw [hbefore] at hcontent
  unfold nodeIn
  cases hkind : kindIn statements path with
  | none =>
      rw [hkind] at hcontent
      simpa using hcontent
  | some kind =>
      rw [hkind] at hcontent hmark
      obtain ⟨node, hnode, hsame⟩ := Option.map_eq_some_iff.mp hcontent
      rw [hnode] at hmark
      have hsingleton : node.singleton = true ↔
          kind = .moduleNode ∧ .mixing path .extending .selfRef ∈ statements := by
        simpa using hmark
      -- path, kind and style are those of the first pass, the mark is that of the second
      rw [hnode, Option.map_some]
      obtain ⟨_, _, singleton, _⟩ := node
      cases hsame
      simp only [Option.some.injEq, Node.mk.injEq, true_and]
      cases singleton <;> simp_all

/-- With nothing to relocate, the end of the second pass leaves the network as it is. -/
theorem net_endPass_of_relocations_nil (h : g.relocations = []) : g.endPass.net = g.net := by
  have hstill : g.Still := by
    intro relocation hmem
    rw [h] at hmem
    cases hmem
  exact hstill.net_endPass

/-- **What a build of plain declarations is.** If all declarations have plain names, the graph that both
passes build from nothing is the one that the statements of the files describe. The paths are those
declared, each with the kind it is declared with first. Containment is the nesting of paths. There is
an inclusion or extension for each mixin that denotes another module, and a superclass for each class
with a declaration that names another class, the first of them. -/
theorem build_plain (files : List (List Item)) (plain : ∀ file ∈ files, Item.allPlain file = true) :
    let statements := files.flatMap (Item.allStatements ⟨[]⟩)
    let net := (Graph.empty.build files).net
    net.Sound ∧
      (∀ path, net.Known path ↔ Declared statements path) ∧
      (∀ path, net.nodeAt path = nodeIn statements path) ∧
      (∀ p q, net.Tied p q .containment ↔
        Declared statements q ∧ 2 ≤ q.segments.length ∧ p = ⟨q.segments.dropLast⟩) ∧
      (∀ p q (mixin : Mixin), net.Tied p q mixin.relation ↔
        ∃ reference, .mixing p mixin reference ∈ statements ∧
          MixesIn (kindIn statements) p reference q) ∧
      (∀ p q, net.Tied p q .inheritance ↔
        FirstHit (DerivesFrom (kindIn statements) p) statements q) ∧
      SameSetting Graph.empty (Graph.empty.build files) := by
  intro statements net
  obtain ⟨hrecorded, hrelating, hrelocations⟩ := relating_secondStart plain
  obtain ⟨hsetting, hrelated⟩ := related_foldl_replay files plain hrelating
    fun path h => kindIn_ne_none_iff.mpr h
  have hnone : (secondWalk files).relocations = [] := hsetting.relocations.trans hrelocations
  have hnet : net = (secondWalk files).net := net_endPass_of_relocations_nil hnone
  have hrelated : Related (kindIn statements) (secondStart files).net net statements := by
    rw [hnet]
    exact hrelated
  have hlayered := hrelated.layered hrelating.layered
  have hknown : ∀ path, net.Known path ↔ Declared statements path := by
    intro path
    rw [hrelated.sound.known_iff_kindAt, hrelated.kindAt_eq, hrelating.kinds]
    exact kindIn_ne_none_iff
  -- the first pass relates nodes by containment only
  have hempty : ∀ p q r, r ≠ .containment → ¬ (secondStart files).net.Tied p q r := by
    rintro p q r hother ⟨a, b, _, _, h⟩
    cases (hrecorded.relates a b r hother).mp h
  refine ⟨hrelated.sound, hknown, nodeAt_eq_nodeIn hrecorded hrelated, fun p q => ?_,
    fun p q mixin => ?_, fun p q => ?_, ?_⟩
  · rw [hlayered.tied_containment_iff, hknown]
  · rw [hrelated.mixed]
    exact or_iff_right (hempty p q _ mixin.relation_ne.2)
  · rw [hrelated.inherited]
    refine (or_iff_right (hempty p q _ (by simp))).trans (and_iff_right ?_)
    exact fun other => hempty p other _ (by simp)
  · have hpass : (secondWalk files).pass = some .findRelations := hsetting.pass.trans hrelating.pass
    rw [build_eq, endPass_eq, if_pos hpass, hnone]
    exact ⟨scope_relocated _ [], rfl, rfl, rfl⟩

/-- A module `M` that extends itself, with a class `A < C`, and a class `C` both in `M` and outside. -/
def twoClasses : List (List Item) :=
  [[.classDecl (.relative ["C"]) none [],
    .moduleDecl (.relative ["M"])
      [.classDecl (.relative ["A"]) (some (.relative ["C"])) [],
        .classDecl (.relative ["C"]) none [],
        .mixing .extending [.selfRef]]]]

theorem build_plain_twoClasses :
    (∀ file ∈ twoClasses, Item.allPlain file = true) ∧
      (Graph.empty.build twoClasses).net.nodeAt ⟨["M"]⟩ =
        some { path := ⟨["M"]⟩, kind := .moduleNode, singleton := true } ∧
      (Graph.empty.build twoClasses).net.Tied ⟨["M", "A"]⟩ ⟨["M", "C"]⟩ .inheritance := by
  have hplain : ∀ file ∈ twoClasses, Item.allPlain file = true := by decide
  obtain ⟨_, _, hnodes, _, _, hinherited, _⟩ := build_plain twoClasses hplain
  refine ⟨hplain, ?_, (hinherited _ _).mpr ?_⟩
  · rw [hnodes]
    decide +kernel
  · -- the only superclass clause names `C`, and the one in `M` is nearer than the outer one
    refine ⟨[.declaration ⟨["C"]⟩ .classNode none, .declaration ⟨["M"]⟩ .moduleNode none],
      .declaration ⟨["M", "A"]⟩ .classNode (some (.relative ["C"])),
      [.declaration ⟨["M", "C"]⟩ .classNode none, .mixing ⟨["M"]⟩ .extending .selfRef], rfl, ?_, ?_⟩
    · refine ⟨.relative ["C"], rfl, by decide +kernel, ?_, by decide +kernel, by decide +kernel⟩
      refine ⟨⟨["M"]⟩, ⟨List.prefix_rfl, by decide +kernel, fun nearer hpart hlonger => ?_⟩, ?_, rfl⟩
      · have hle := hpart.length_le
        simp at hle hlonger
        omega
      · intro count hcount
        obtain rfl : count = 0 := Nat.le_zero.mp hcount
        decide +kernel
    · rintro other hother target ⟨reference, rfl, _⟩
      simp at hother

end Graph

end ClassAtlas
