import ClassAtlas.Proofs.BuildStates
import ClassAtlas.Proofs.Nesting

/-!
# Networks that grow

A walk never takes anything away: paths keep their nodes, nodes keep their kinds and their containers
(`Network.Grown`). But resolution is not monotone in what is there. A new node may hide one further
out, and a new container opens scopes that a name was not looked for in before.

The search for a name ends at one path (`Network.hitPath`), in the nearest scope that has the name. So if
a reference names a node in a network that has grown, it named this node before exactly if the scope
where the search ends was among the scopes before, and all paths on the way were known
(`Grown.resolve_iff_foreseen`).
-/

namespace ClassAtlas

/-- A search in the beginning of a list that asks for more has the same first hit if it accepts that
hit at all. -/
theorem find?_of_prefix {α : Type} {part whole : List α} {p q : α → Bool} {hit : α}
    (begins : part <+: whole) (weaker : ∀ a ∈ part, p a = true → q a = true)
    (found : whole.find? q = some hit) (mem : hit ∈ part) (accepted : p hit = true) :
    part.find? p = some hit := by
  induction part generalizing whole with
  | nil => exact absurd mem List.not_mem_nil
  | cons a part ih =>
      obtain ⟨rest, hwhole⟩ := begins
      subst hwhole
      rw [List.cons_append, List.find?_cons] at found
      rw [List.find?_cons]
      cases hp : p a with
      | true =>
          rw [weaker a List.mem_cons_self hp] at found
          exact found
      | false =>
          have hne : hit ≠ a := by
            intro h
            rw [h, hp] at accepted
            exact Bool.false_ne_true accepted
          cases hq : q a with
          | true =>
              rw [hq] at found
              exact absurd (Option.some.inj found).symm hne
          | false =>
              rw [hq] at found
              refine ih (List.prefix_append part rest)
                (fun b hb => weaker b (List.mem_cons_of_mem _ hb)) found ?_
              exact (List.mem_cons.mp mem).resolve_left hne

theorem Path.join_right_cancel {p q : Path} {tail : List String} (h : p.join tail = q.join tail) :
    p = q := by
  have hsegments := congrArg Path.segments h
  rw [segments_join, segments_join] at hsegments
  exact congrArg Path.mk (List.append_cancel_right hsegments)

namespace Network

variable {net before after : Network} {owner id : NodeId} {name : String} {origin : Option NodeId}

/-! ## Where a search ends -/

theorem Sound.live_of_mem_enclosing (sound : net.Sound) {steps : Nat} {scope : NodeId}
    (live : net.Live id) (h : scope ∈ net.enclosing steps id) : net.Live scope := by
  induction steps generalizing id with
  | zero =>
      rw [List.mem_singleton.mp h]
      exact live
  | succ steps ih =>
      unfold enclosing at h
      rcases List.mem_cons.mp h with hself | hout
      · rw [hself]
        exact live
      · cases hcontainer : net.container? id with
        | none =>
            rw [hcontainer] at hout
            exact absurd hout List.not_mem_nil
        | some outer =>
            rw [hcontainer] at hout
            exact ih (sound.ends _ _ _ (relates_of_container? hcontainer)).1 hout

/-- The nearest scope in which the name is known. -/
def hitScope? (net : Network) (name : String) (origin : Option NodeId) : Option NodeId :=
  (net.scopesFrom origin).find? (fun scope => decide (net.Known ((net.pathOf scope).child name)))

/-- The path at which the search for a name ends: in the nearest scope that has it, or else at the top
level. -/
def hitPath (net : Network) (name : String) (origin : Option NodeId) : Path :=
  match net.hitScope? name origin with
  | some scope => (net.pathOf scope).child name
  | none => ⟨[name]⟩

theorem resolveName_eq_lookup_hitPath (net : Network) (name : String) (origin : Option NodeId) :
    net.resolveName name origin = net.lookup (net.hitPath name origin) := by
  unfold resolveName hitPath hitScope?
  induction net.scopesFrom origin with
  | nil => rfl
  | cons scope rest ih =>
      rw [List.findSome?_cons, List.find?_cons]
      cases hfound : net.lookup ((net.pathOf scope).child name) with
      | none =>
          have hunknown : ¬ net.Known ((net.pathOf scope).child name) := by
            intro h
            obtain ⟨hit, hhit⟩ := h
            rw [hfound] at hhit
            cases hhit
          simp only [hunknown, decide_false]
          exact ih
      | some hit =>
          have hknown : net.Known ((net.pathOf scope).child name) := ⟨hit, hfound⟩
          simp only [hknown, decide_true, hfound]

/-- A relative reference names a node if all paths from the end of the search on are known. -/
theorem Sound.resolve_relative_iff (sound : net.Sound) {rest : List String} :
    net.resolve (.relative (name :: rest)) origin = some id ↔
      (∀ count ≤ rest.length, net.Known ((net.hitPath name origin).join (rest.take count))) ∧
        net.lookup ((net.hitPath name origin).join rest) = some id := by
  rw [resolve_relative_cons, resolveName_eq_lookup_hitPath]
  cases hbase : net.lookup (net.hitPath name origin) with
  | some base => exact sound.descend_iff hbase
  | none =>
      refine ⟨fun h => (nomatch h), fun h => ?_⟩
      obtain ⟨base, hknown⟩ := h.1 0 (Nat.zero_le _)
      rw [List.take_zero, Path.join_nil, hbase] at hknown
      cases hknown

/-! ## Growth -/

/-- What is in the first network is in the second: paths keep their nodes, and nodes keep their kinds and
their containers. -/
structure Grown (before after : Network) : Prop where
  lookup : ∀ path id, before.lookup path = some id → after.lookup path = some id
  kind : ∀ id, before.Live id → after.kindOf? id = before.kindOf? id
  containment : ∀ a b, before.Relates a b .containment → after.Relates a b .containment

namespace Grown

theorem refl (net : Network) : Grown net net :=
  ⟨fun _ _ h => h, fun _ _ => rfl, fun _ _ h => h⟩

theorem known (grown : Grown before after) {path : Path} (h : before.Known path) :
    after.Known path := by
  obtain ⟨id, hid⟩ := h
  exact ⟨id, grown.lookup path id hid⟩

theorem container?_eq_some (grown : Grown before after) (sound' : after.Sound) {outer : NodeId}
    (h : before.container? id = some outer) :
    after.container? id = some outer := by
  have hrelates := grown.containment _ _ (relates_of_container? h)
  cases hafter : after.container? id with
  | none => exact absurd hrelates (container?_eq_none_iff.mp hafter outer)
  | some other => rw [sound'.contained _ _ _ (relates_of_container? hafter) hrelates]

/-- A node keeps its scopes and may get more of them, further out. -/
theorem enclosing_begins (grown : Grown before after) (sound' : after.Sound) {steps steps' : Nat}
    (more : steps ≤ steps') :
    before.enclosing steps id <+: after.enclosing steps' id := by
  induction steps generalizing steps' id with
  | zero => cases steps' <;> exact ⟨_, rfl⟩
  | succ steps ih =>
      cases steps' with
      | zero => exact absurd more (Nat.not_succ_le_zero steps)
      | succ steps' =>
          unfold enclosing
          refine (List.prefix_cons_inj id).mpr ?_
          cases hcontainer : before.container? id with
          | none => exact List.nil_prefix
          | some outer =>
              rw [grown.container?_eq_some sound' hcontainer]
              exact ih (Nat.le_of_succ_le_succ more)

section Sound

variable (grown : Grown before after) (sound : before.Sound) (sound' : after.Sound)

include grown sound sound'

theorem pathOf_eq (live : before.Live id) : after.pathOf id = before.pathOf id :=
  sound'.pathOf_of_lookup (grown.lookup _ _ (sound.lookup_pathOf live))

theorem live (live : before.Live id) : after.Live id :=
  sound'.live_of_lookup (grown.lookup _ _ (sound.lookup_pathOf live))

theorem trans {later : Network} (next : Grown after later) : Grown before later where
  lookup := fun path id h => next.lookup path id (grown.lookup path id h)
  kind := fun id hlive => (next.kind id (grown.live sound sound' hlive)).trans (grown.kind id hlive)
  containment := fun a b h => next.containment a b (grown.containment a b h)

theorem scopesFrom_begins (owner : NodeId) :
    before.scopesFrom (some owner) <+: after.scopesFrom (some owner) := by
  refine grown.enclosing_begins sound' ?_
  have hlive : ∀ id ∈ before.nodes.ids, after.Live id := fun _ h => grown.live sound sound' h
  rw [before.nodes.size_eq_length_ids]
  exact length_le_size sound.nodes.ids_nodup hlive

end Sound

end Grown

/-! ## References in networks that grow -/

/-- What `reference` names from `owner` in the later network can be found in the earlier one: the scope
where the search ends is among the scopes there, and the paths from there on are known. -/
def Foreseen (before after : Network) (reference : Reference) (owner : NodeId) : Prop :=
  match reference with
  | .selfRef => False
  | .absolute segments => before.Known ⟨segments⟩
  | .relative [] => False
  | .relative (name :: rest) =>
    (∀ scope, after.hitScope? name (some owner) = some scope →
      scope ∈ before.scopesFrom (some owner)) ∧
    ∀ count ≤ rest.length, before.Known ((after.hitPath name (some owner)).join (rest.take count))

namespace Grown

section Search

variable (grown : Grown before after) (sound : before.Sound) (sound' : after.Sound)
  (live : before.Live owner)

include grown sound sound' live

/-- If the scope where the search ends is a scope already and has the name, the search ends there. -/
theorem hitPath_eq
    (there : ∀ scope, after.hitScope? name (some owner) = some scope →
      scope ∈ before.scopesFrom (some owner))
    (known : before.Known (after.hitPath name (some owner))) :
    before.hitPath name (some owner) = after.hitPath name (some owner) := by
  have hbegins := grown.scopesFrom_begins sound sound' owner
  have hpath : ∀ scope ∈ before.scopesFrom (some owner),
      after.pathOf scope = before.pathOf scope := by
    intro scope hscope
    exact grown.pathOf_eq sound sound' (sound.live_of_mem_enclosing live hscope)
  have hweaker : ∀ scope ∈ before.scopesFrom (some owner),
      decide (before.Known ((before.pathOf scope).child name)) = true →
        decide (after.Known ((after.pathOf scope).child name)) = true := by
    intro scope hscope h
    rw [hpath scope hscope]
    exact decide_eq_true (grown.known (of_decide_eq_true h))
  cases hhit : after.hitScope? name (some owner) with
  | some scope =>
      have hmem := there scope hhit
      have hend : after.hitPath name (some owner) = (before.pathOf scope).child name := by
        unfold hitPath
        rw [hhit]
        simp only [hpath scope hmem]
      rw [hend] at known ⊢
      have hfirst : before.hitScope? name (some owner) = some scope :=
        find?_of_prefix hbegins hweaker hhit hmem (decide_eq_true known)
      unfold hitPath
      rw [hfirst]
  | none =>
      -- a hit before would be a hit now
      have hnone : before.hitScope? name (some owner) = none := by
        refine List.find?_eq_none.mpr fun scope hscope h => ?_
        exact List.find?_eq_none.mp hhit scope (hbegins.subset hscope) (hweaker scope hscope h)
      unfold hitPath
      rw [hnone, hhit]

/-- Searches that end at one path end in one scope. -/
theorem mem_scopesFrom_of_hitPath_eq (unrooted : ¬ after.Known ⟨[]⟩) {scope : NodeId}
    (same : before.hitPath name (some owner) = after.hitPath name (some owner))
    (hit : after.hitScope? name (some owner) = some scope) :
    scope ∈ before.scopesFrom (some owner) := by
  have hscope : after.Live scope :=
    sound'.live_of_mem_enclosing (grown.live sound sound' live) (List.mem_of_find?_eq_some hit)
  have hend : after.hitPath name (some owner) = (after.pathOf scope).child name := by
    unfold hitPath
    rw [hit]
  rw [hend] at same
  cases hbefore : before.hitScope? name (some owner) with
  | none =>
      -- then the scope would have the empty path
      have htop : (⟨[name]⟩ : Path) = (after.pathOf scope).child name := by
        rw [← same]
        unfold hitPath
        rw [hbefore]
      have hroot := (Path.child_inj (p := ⟨[]⟩) htop).1
      exact absurd ⟨scope, hroot ▸ sound'.lookup_pathOf hscope⟩ unrooted
  | some other =>
      have hmem := List.mem_of_find?_eq_some hbefore
      have hother := sound.live_of_mem_enclosing live hmem
      have hpaths : (before.pathOf other).child name = (after.pathOf scope).child name := by
        rw [← same]
        unfold hitPath
        rw [hbefore]
      have hsame : after.pathOf other = after.pathOf scope := by
        rw [grown.pathOf_eq sound sound' hother]
        exact (Path.child_inj hpaths).1
      rw [← sound'.eq_of_pathOf_eq (grown.live sound sound' hother) hscope hsame]
      exact hmem

/-- What a reference names in the later network it named before exactly if that could be found. -/
theorem resolve_iff_foreseen (unrooted : ¬ after.Known ⟨[]⟩) {reference : Reference} {target : NodeId}
    (resolved : after.resolve reference (some owner) = some target) :
    before.resolve reference (some owner) = some target ↔ Foreseen before after reference owner := by
  match reference, resolved with
  | .absolute segments, resolved =>
      rw [resolve_absolute] at resolved ⊢
      constructor
      · intro h
        exact ⟨target, h⟩
      · intro h
        obtain ⟨id, hid⟩ := h
        rw [grown.lookup _ _ hid] at resolved
        rw [hid, resolved]
  | .relative (name :: rest), resolved =>
      obtain ⟨_, hlast⟩ := sound'.resolve_relative_iff.mp resolved
      rw [sound.resolve_relative_iff]
      constructor
      · intro h
        obtain ⟨hsteps, hfound⟩ := h
        have hends := sound'.path_inj (grown.lookup _ _ hfound) hlast
        have hsame := Path.join_right_cancel hends
        refine ⟨fun scope hscope => ?_, fun count hcount => ?_⟩
        · exact grown.mem_scopesFrom_of_hitPath_eq sound sound' live unrooted hsame hscope
        · rw [← hsame]
          exact hsteps count hcount
      · intro h
        obtain ⟨hscope, hsteps⟩ := h
        have hbase := hsteps 0 (Nat.zero_le _)
        rw [List.take_zero, Path.join_nil] at hbase
        rw [grown.hitPath_eq sound sound' live hscope hbase]
        refine ⟨hsteps, ?_⟩
        obtain ⟨id, hid⟩ := hsteps rest.length (Nat.le_refl _)
        rw [List.take_length] at hid
        rw [grown.lookup _ _ hid] at hlast
        rw [hid, hlast]

end Search

/-- Where nothing is new, all that a reference names could be found. -/
theorem foreseen (back : Grown after before) (sound : before.Sound) (sound' : after.Sound)
    {reference : Reference} {target : NodeId}
    (resolved : after.resolve reference (some owner) = some target) :
    Foreseen before after reference owner := by
  match reference, resolved with
  | .absolute segments, resolved => exact back.known ⟨target, resolved⟩
  | .relative (name :: rest), resolved =>
      obtain ⟨hsteps, _⟩ := sound'.resolve_relative_iff.mp resolved
      refine ⟨fun scope hscope => ?_, fun count hcount => back.known (hsteps count hcount)⟩
      have hmem := List.mem_of_find?_eq_some hscope
      exact (back.scopesFrom_begins sound' sound owner).subset hmem

end Grown

end Network

namespace Graph

open Network

variable {g h : Graph}

/-! ## Walks -/

theorem grown_of_kept (kept : Kept g h) : Grown g.net h.net where
  lookup := fun path _ hid => (kept.lookup path).trans hid
  kind := fun _ _ => kept.kindOf?_eq _
  containment := fun a b hab => (kept.containment a b).mpr hab

/-- An operation of a walk takes nothing away. -/
theorem Step.grown (step : Step g h) (standing : Standing g) : Grown g.net h.net := by
  cases step with
  | enter hopen =>
      obtain ⟨outer, id, _, entered⟩ := entered_of_enter hopen
      refine ⟨fun path id hid => entered.lookup_mono hid, fun id hlive => ?_, fun a b hab => ?_⟩
      · unfold kindOf?
        rw [entered.node?_of_live standing.sound hlive]
      · exact entered.relates_iff.mpr (.inl hab)
  | leave => exact .refl _
  | inherit superclass => exact grown_of_kept (.inherit g superclass)
  | mix mixin target => exact grown_of_kept (.mix g mixin target)

theorem Steps.grown (steps : Steps g h) (standing : Standing g) : Standing h ∧ Grown g.net h.net := by
  induction steps with
  | refl => exact ⟨standing, .refl _⟩
  | tail _ step ih =>
      obtain ⟨hstanding, hgrown⟩ := ih
      have hnext := hstanding.step step
      exact ⟨hnext, hgrown.trans standing.sound hstanding.sound (step.grown hstanding)⟩

/-- No operation of a walk changes the pass. -/
theorem Steps.pass_eq (steps : Steps g h) : h.pass = g.pass := by
  induction steps with
  | refl => rfl
  | tail _ step ih =>
      rw [← ih]
      cases step with
      | enter hopen =>
          obtain ⟨outer, id, _, entered⟩ := entered_of_enter hopen
          exact entered.pass
      | leave => rfl
      | inherit superclass => exact (Kept.inherit _ superclass).pass
      | mix mixin target => exact (Kept.mix _ mixin target).pass

/-- Only in the first pass does a declaration make a node provisional. -/
theorem isProvisional_of_trackProvisional {name : Reference} {path : Path} {outer : Option NodeId}
    {id other : NodeId} (later : g.pass ≠ some .findNodes)
    (h : (g.trackProvisional name path outer id).isProvisional other = true) :
    g.isProvisional other = true := by
  unfold trackProvisional at h
  split at h
  · exact (isProvisional_settle.mp h).1
  · rw [if_neg fun hfirst => later hfirst.1] at h
    exact h
  · simp only at h
    split at h
    · exact (isProvisional_settle.mp h).1
    · split at h
      · exact (isProvisional_settle.mp h).1
      · split at h <;> exact (isProvisional_settle.mp h).1

theorem Step.isProvisional (step : Step g h) (later : g.pass ≠ some .findNodes) {id : NodeId}
    (hprov : h.isProvisional id = true) : g.isProvisional id = true := by
  have hkept : ∀ {h : Graph}, SameSetting g h → h.isProvisional id = true →
      g.isProvisional id = true := by
    intro h same hprov
    rwa [Graph.isProvisional, same.provisional] at hprov
  cases step with
  | @enter _ kind name path hopen =>
      obtain ⟨outer, _, rfl⟩ := enter_eq_some hopen
      have hsame := g.sameSetting_findOrAdd path kind
      have htracked : (g.opened kind name path outer).isProvisional id =
          ((g.findOrAdd path kind).2.trackProvisional name path outer
            (g.findOrAdd path kind).1).isProvisional id := by
        show (g.declared kind name path outer).isProvisional id = _
        unfold declared
        rw [contain_eq]
        rfl
      rw [htracked] at hprov
      exact hkept hsame (isProvisional_of_trackProvisional (hsame.pass ▸ later) hprov)
  | leave => exact hprov
  | inherit superclass => exact hkept (Kept.inherit g superclass).toSameSetting hprov
  | mix mixin target => exact hkept (Kept.mix g mixin target).toSameSetting hprov

/-- A node that is provisional in the second pass was so when the pass began. -/
theorem Steps.isProvisional (steps : Steps g h) (later : g.pass ≠ some .findNodes) {id : NodeId}
    (hprov : h.isProvisional id = true) : g.isProvisional id = true := by
  induction steps with
  | refl => exact hprov
  | tail hsteps step ih => exact ih (step.isProvisional (Steps.pass_eq hsteps ▸ later) hprov)

/-- No walk makes a node without a name. -/
theorem walkLaw_unrooted : WalkLaw (fun g => ¬ g.net.Known ⟨[]⟩) where
  start := by
    intro ignored styles h
    obtain ⟨id, hid⟩ := h
    cases hid
  setting := fun g scope pass rulesFrozen journal h => h
  step := by
    intro g h standing step unrooted
    have hkept : ∀ {h : Graph}, Kept g h → ¬ h.net.Known ⟨[]⟩ := by
      intro h kept known
      obtain ⟨id, hid⟩ := known
      exact unrooted ⟨id, (kept.lookup _).symm.trans hid⟩
    cases step with
    | enter hopen =>
        obtain ⟨outer, id, htarget, entered⟩ := entered_of_enter hopen
        rw [entered.known_iff]
        intro known
        rcases known with hbefore | hpath
        · exact unrooted hbefore
        · refine (declarationTarget_spec standing.sound standing.scope htarget).1 ?_
          rw [← hpath]
    | leave => exact unrooted
    | inherit superclass => exact hkept (.inherit g superclass)
    | mix mixin target => exact hkept (.mix g mixin target)

end Graph

end ClassAtlas
