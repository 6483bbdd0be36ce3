import ClassAtlas.Proofs.Nesting
import ClassAtlas.Proofs.Reachable

/-!
# Files in which every declaration has a plain name

A file is read as a list of statements, in the order of the walk: each declaration with the path that
its nesting gives it, each mixin with the path of the body it stands in. If every declared name is
plain, that is all there is to the first pass: it makes one node for each declared path, of the kind
that the path is declared with first, and containment is the nesting of paths.
-/

namespace ClassAtlas

/-! ## What a file says -/

/-- A declaration or a mixin, with its place. -/
inductive Statement where
  | declaration (path : Path) (kind : Kind) (superclass : Option Reference)
  | mixing (owner : Path) (mixin : Mixin) (target : Reference)
deriving DecidableEq, Repr

/-- A single name, which declares in the body where it stands. -/
def Reference.isPlain : Reference → Bool
  | .relative [_] => true
  | _ => false

theorem Reference.eq_of_isPlain {reference : Reference} (h : reference.isPlain = true) :
    ∃ name, reference = .relative [name] := by
  match reference, h with
  | .relative [name], _ => exact ⟨name, rfl⟩

namespace Item

mutual

/-- All declarations in the item have plain names. -/
def isPlain : Item → Bool
  | .classDecl name _ body => name.isPlain && allPlain body
  | .moduleDecl name body => name.isPlain && allPlain body
  | .mixing _ _ => true

/-- All declarations in the items have plain names. -/
def allPlain : List Item → Bool
  | [] => true
  | item :: rest => item.isPlain && allPlain rest

end

mutual

/-- What an item in the body of `outer` says, in the order of the walk. -/
def statements (outer : Path) : Item → List Statement
  | .classDecl name superclass body =>
    .declaration (outer.join name.segments) .classNode superclass ::
      allStatements (outer.join name.segments) body
  | .moduleDecl name body =>
    .declaration (outer.join name.segments) .moduleNode none ::
      allStatements (outer.join name.segments) body
  | .mixing mixin targets => targets.map (Statement.mixing outer mixin)

/-- What items in the body of `outer` say. -/
def allStatements (outer : Path) : List Item → List Statement
  | [] => []
  | item :: rest => item.statements outer ++ allStatements outer rest

end

end Item

/-- The path is declared. -/
def Declared (statements : List Statement) (path : Path) : Prop :=
  ∃ kind superclass, Statement.declaration path kind superclass ∈ statements

theorem declared_append {first second : List Statement} {path : Path} :
    Declared (first ++ second) path ↔ Declared first path ∨ Declared second path := by
  simp only [Declared, List.mem_append, exists_or]

theorem declared_cons {statement : Statement} {rest : List Statement} {path : Path} :
    Declared (statement :: rest) path ↔ Declared [statement] path ∨ Declared rest path := by
  rw [← List.singleton_append, declared_append]

/-- The kind that a path is declared with first. -/
def kindIn (statements : List Statement) (path : Path) : Option Kind :=
  statements.findSome? fun
    | .declaration declared kind _ => if declared = path then some kind else none
    | .mixing _ _ _ => none

/-- A path has a kind if it is declared. -/
theorem kindIn_ne_none_iff {statements : List Statement} {path : Path} :
    kindIn statements path ≠ none ↔ Declared statements path := by
  unfold kindIn Declared
  rw [ne_eq, List.findSome?_eq_none_iff]
  constructor
  · intro h
    by_contra hnone
    refine h fun statement hmem => ?_
    cases statement with
    | mixing => rfl
    | declaration declared kind superclass =>
        refine if_neg fun heq => hnone ⟨kind, superclass, ?_⟩
        rw [← heq]
        exact hmem
  · rintro ⟨kind, superclass, hmem⟩ h
    have hkind := h _ hmem
    simp at hkind

theorem kindIn_append (first second : List Statement) (path : Path) :
    kindIn (first ++ second) path = (kindIn first path).or (kindIn second path) :=
  List.findSome?_append

/-- The node that a path gets: of the kind it is declared with first, and marked if it is a module with
`extend self` in one of its bodies. -/
def nodeIn (statements : List Statement) (path : Path) : Option Node :=
  (kindIn statements path).map fun kind =>
    { path := path
      kind := kind
      singleton := decide (kind = .moduleNode ∧ .mixing path .extending .selfRef ∈ statements) }

theorem kindIn_declaration (declared path : Path) (kind : Kind) (superclass : Option Reference) :
    kindIn [.declaration declared kind superclass] path = if declared = path then some kind else none := by
  simp [kindIn]

theorem kindIn_mixing (owner path : Path) (mixin : Mixin) (targets : List Reference) :
    kindIn (targets.map (.mixing owner mixin)) path = none := by
  simp [kindIn]

namespace Network

variable {net between after : Network}

/-- The node that a path names. -/
def nodeAt (net : Network) (path : Path) : Option Node :=
  (net.lookup path).bind net.node?

/-- What the first pass does with statements: new paths get nodes of the kind they are declared with
first, and nothing else changes. -/
structure Recorded (net after : Network) (statements : List Statement) : Prop where
  layered : Layered after
  lookup : ∀ path id, net.lookup path = some id → after.lookup path = some id
  nodeAt : ∀ path, after.nodeAt path =
    (net.nodeAt path).or ((kindIn statements path).map fun kind => { path := path, kind := kind })
  relates : ∀ a b relation, relation ≠ .containment →
    (after.Relates a b relation ↔ net.Relates a b relation)

namespace Recorded

/-- Mixins are left to the second pass. -/
theorem of_mixing (layered : Layered net) (owner : Path) (mixin : Mixin) (targets : List Reference) :
    Recorded net net (targets.map (.mixing owner mixin)) where
  layered := layered
  lookup := fun _ _ h => h
  nodeAt := fun path => by rw [kindIn_mixing, Option.map_none, Option.or_none]
  relates := fun _ _ _ _ => Iff.rfl

theorem refl (layered : Layered net) : Recorded net net [] where
  layered := layered
  lookup := fun _ _ h => h
  nodeAt := fun path => by simp [kindIn]
  relates := fun _ _ _ _ => Iff.rfl

theorem trans {first second : List Statement} (before : Recorded net between first)
    (later : Recorded between after second) : Recorded net after (first ++ second) where
  layered := later.layered
  lookup := fun path id h => later.lookup path id (before.lookup path id h)
  nodeAt := fun path => by
    rw [later.nodeAt, before.nodeAt, kindIn_append, Option.or_assoc]
    cases kindIn first path <;> simp
  relates := fun a b relation h => (later.relates a b relation h).trans (before.relates a b relation h)

end Recorded

end Network

namespace Graph

open Network

variable {g inner : Graph} {kind : Kind} {name : String} {outer : Path} {id : NodeId}

/-- The walk stands in the body of `outer`, in a network that is nested as its paths are. -/
structure Ready (g : Graph) (outer : Path) : Prop where
  layered : Layered g.net
  scopes : Scopes g.net g.scope outer
  settled : g.provisional = []

/-! ## Opening a declaration with a plain name -/

namespace Ready

theorem top?_eq (ready : Ready g outer) : g.top? = g.net.lookup outer :=
  ready.scopes.head?_eq_lookup ready.layered

theorem declarationTarget_eq (ready : Ready g outer) (name : String) :
    g.declarationTarget (.relative [name]) = some (outer.child name, g.top?) := by
  have htop := ready.top?_eq
  unfold declarationTarget
  cases hscope : g.top? with
  | none =>
      have hroot : outer = ⟨[]⟩ := by
        have hscopes := ready.scopes
        rw [List.head?_eq_none_iff.mp hscope] at hscopes
        cases hscopes
        rfl
      rw [hroot]
      rfl
  | some top =>
      rw [hscope] at htop
      simp only [ready.layered.sound.pathOf_of_lookup htop.symm]

/-- A plain name opens the path that the nesting gives it. -/
theorem enter (ready : Ready g outer) (kind : Kind) (name : String) :
    ∃ inner id, g.enter kind (.relative [name]) = some (outer.child name, inner) ∧
      Entered g inner kind (outer.child name) (g.net.lookup outer) id ∧
      inner.provisional = [] ∧ inner.relocations = g.relocations := by
  have hfound := g.sameSetting_findOrAdd (outer.child name) kind
  refine ⟨g.opened kind (.relative [name]) (outer.child name) g.top?,
    (g.findOrAdd (outer.child name) kind).1, ?_, ?_, ?_, ?_⟩
  · rw [enter_eq, ready.declarationTarget_eq]
  · rw [← ready.top?_eq]
    exact g.entered_opened kind (.relative [name]) (outer.child name) g.top?
  · show (g.declared kind (.relative [name]) (outer.child name) g.top?).provisional = []
    unfold declared
    rw [contain_eq]
    show ((g.findOrAdd (outer.child name) kind).2.settle _).provisional = []
    unfold settle
    simp [hfound.provisional, ready.settled]
  · show (g.declared kind (.relative [name]) (outer.child name) g.top?).relocations = g.relocations
    unfold declared
    rw [contain_eq]
    exact hfound.relocations

/-- A new node lies in the node of the enclosing path, so containment is still the nesting. -/
theorem layered_enter (ready : Ready g outer)
    (entered : Entered g inner kind (outer.child name) (g.net.lookup outer) id) :
    Layered inner.net := by
  have hlayered := ready.layered
  have hsound := entered.sound hlayered.sound fun _ h => hlayered.sound.live_of_lookup h
  have hpathOf : ∀ a, g.net.Live a → inner.net.pathOf a = g.net.pathOf a := by
    intro a ha
    unfold pathOf
    rw [entered.node?_of_live hlayered.sound ha]
  have hrooted : ¬ inner.net.Known ⟨[]⟩ := by
    rw [entered.known_iff]
    rintro (h | h)
    · exact hlayered.rooted h
    · exact Path.child_ne_root outer name h.symm
  refine ⟨hsound, hrooted, ?_, ?_, ?_⟩
  · -- the path around the new one is the scope
    intro around last hknown hne
    rw [entered.known_iff] at hknown ⊢
    rcases hknown with h | h
    · exact .inl (hlayered.enclosed around last h hne)
    · obtain ⟨rfl, _⟩ := Path.child_inj h
      exact .inl (ready.scopes.known hne)
  · intro a b hab
    rcases entered.relates_iff.mp hab with h | ⟨houter, rfl, _⟩
    · obtain ⟨ha, hb⟩ := hlayered.sound.ends a b _ h
      rw [hpathOf a ha, hpathOf b hb]
      exact hlayered.follows a b h
    · refine ⟨name, ?_⟩
      rw [hsound.pathOf_of_lookup entered.lookup_path,
        hsound.pathOf_of_lookup (entered.lookup_mono houter)]
  · intro around last a b ha hb
    by_cases hhere : around.child last = outer.child name
    · -- the declared node itself: found in its container, or put there now
      obtain ⟨rfl, rfl⟩ := Path.child_inj hhere
      have hid : id = b := Option.some.inj (entered.lookup_path.symm.trans hb)
      subst hid
      have hself : around ≠ around.child last := by
        intro h
        have hlength := congrArg (fun path => path.segments.length) h
        simp at hlength
      have haround : g.net.lookup around = some a := by
        rw [← entered.lookup_of_ne hself, ha]
      rcases entered.net with ⟨hfound, _⟩ | ⟨_, hnew, _⟩
      · exact entered.relates_iff.mpr (.inl (hlayered.contained around last a id haround hfound))
      · have hfresh : ¬ g.net.Live id := by
          rw [hnew]
          exact hlayered.sound.nextId_not_live
        refine entered.relates_iff.mpr (.inr ⟨haround, rfl, rfl, ?_, fun other h => ?_⟩)
        · rintro rfl
          exact hfresh (hlayered.sound.live_of_lookup haround)
        · exact hfresh (hlayered.sound.ends other id _ h).2
    · -- any other pair of nested paths had its nodes before
      rw [entered.lookup_of_ne hhere] at hb
      have hne : around ≠ ⟨[]⟩ := by
        rintro rfl
        exact hrooted ⟨a, ha⟩
      obtain ⟨found, hfound⟩ := hlayered.enclosed around last ⟨b, hb⟩ hne
      have hsame : found = a := Option.some.inj ((entered.lookup_mono hfound).symm.trans ha)
      subst hsame
      exact entered.relates_iff.mpr (.inl (hlayered.contained around last found b hfound hb))

theorem recorded_enter (ready : Ready g outer)
    (entered : Entered g inner kind (outer.child name) (g.net.lookup outer) id)
    (superclass : Option Reference) :
    Recorded g.net inner.net [.declaration (outer.child name) kind superclass] := by
  have hsound := ready.layered.sound
  refine ⟨ready.layered_enter entered, fun _ _ => entered.lookup_mono, fun path => ?_, ?_⟩
  · rw [kindIn_declaration]
    unfold Network.nodeAt
    by_cases hpath : outer.child name = path
    · subst hpath
      rw [entered.lookup_path, if_pos rfl]
      rcases entered.net with ⟨hfound, _⟩ | ⟨hnone, hnew, hnet⟩
      · obtain ⟨node, hnode⟩ := live_iff.mp (hsound.live_of_lookup hfound)
        rw [hfound, Option.bind_some, Option.bind_some,
          entered.node?_of_live hsound (hsound.live_of_lookup hfound), hnode, Option.some_or]
      · rw [hnone, Option.bind_some, hnet, node?_containedNet, node?_addNode, if_pos hnew]
        rfl
    · rw [entered.lookup_of_ne (Ne.symm hpath), if_neg hpath, Option.map_none, Option.or_none]
      cases hfound : g.net.lookup path with
      | none => rfl
      | some found =>
          rw [Option.bind_some, Option.bind_some]
          exact entered.node?_of_live hsound (hsound.live_of_lookup hfound)
  · intro a b relation hother
    rw [entered.relates_iff]
    exact ⟨fun h => h.resolve_right fun h => hother h.2.2.1, .inl⟩

end Ready

/-! ## The first pass -/

/-- The walk over a body starts in the node of its declaration. -/
theorem Ready.inside (ready : Ready g outer)
    (entered : Entered g inner kind (outer.child name) (g.net.lookup outer) id)
    (settled : inner.provisional = []) : Ready inner (outer.child name) where
  layered := ready.layered_enter entered
  scopes := by
    rw [entered.scope]
    exact .inner (ready.scopes.mono fun _ _ => entered.lookup_mono) entered.lookup_path
  settled := settled

/-- The walk goes on where it stood. -/
theorem Ready.recorded {h : Graph} {statements : List Statement} (ready : Ready g outer)
    (setting : SameSetting g h) (recorded : Recorded g.net h.net statements) : Ready h outer where
  layered := recorded.layered
  scopes := by
    rw [setting.scope]
    exact ready.scopes.mono recorded.lookup
  settled := setting.provisional.trans ready.settled

/-- A declaration ends where it began. -/
theorem sameSetting_declare {body : Graph → Graph} {reference : Reference} {path : Path}
    {around : Option NodeId} (hopen : g.enter kind reference = some (path, inner))
    (entered : Entered g inner kind path around id) (inside : SameSetting inner (body inner))
    (provisional : inner.provisional = g.provisional) (relocations : inner.relocations = g.relocations) :
    SameSetting g (g.declare kind reference body).2 ∧
      (g.declare kind reference body).2.net = (body inner).net := by
  have heq : (g.declare kind reference body).2 = (body inner).leave := by
    unfold Graph.declare
    rw [hopen]
  rw [heq]
  refine ⟨⟨?_, inside.pass.trans entered.pass, inside.provisional.trans provisional,
    inside.relocations.trans relocations⟩, rfl⟩
  show (body inner).scope.tail = g.scope
  rw [inside.scope, entered.scope, List.tail_cons]

/-- A declaration in the first pass, with a body that is recorded. -/
theorem Ready.recorded_declare {reference : Reference} {body : List Item} (ready : Ready g outer)
    (plain : reference.isPlain = true) (kind : Kind) (superclass : Option Reference)
    (inside : ∀ inner, Ready inner (outer.join reference.segments) →
      SameSetting inner (replayItems false body inner) ∧
        Recorded inner.net (replayItems false body inner).net
          (Item.allStatements (outer.join reference.segments) body)) :
    SameSetting g (g.declare kind reference (replayItems false body)).2 ∧
      Recorded g.net (g.declare kind reference (replayItems false body)).2.net
        (.declaration (outer.join reference.segments) kind superclass ::
          Item.allStatements (outer.join reference.segments) body) := by
  obtain ⟨name, rfl⟩ := Reference.eq_of_isPlain plain
  obtain ⟨inner, id, hopen, entered, hsettled, hrelocations⟩ := ready.enter kind name
  obtain ⟨hsetting, hrecorded⟩ := inside inner (ready.inside entered hsettled)
  obtain ⟨hsame, hnet⟩ := sameSetting_declare hopen entered hsetting
    (hsettled.trans ready.settled.symm) hrelocations
  refine ⟨hsame, ?_⟩
  rw [hnet]
  exact (ready.recorded_enter entered superclass).trans hrecorded

/-- The walk of the first pass over plain declarations records what they say. -/
theorem recorded_replayItems (items : List Item) (plain : Item.allPlain items = true)
    (ready : Ready g outer) :
    SameSetting g (replayItems false items g) ∧
      Recorded g.net (replayItems false items g).net (Item.allStatements outer items) := by
  suffices hall : (∀ item : Item, item.isPlain = true → ∀ g outer, Ready g outer →
      SameSetting g (replayItem false item g) ∧
        Recorded g.net (replayItem false item g).net (item.statements outer)) ∧
      ∀ items, Item.allPlain items = true → ∀ g outer, Ready g outer →
        SameSetting g (replayItems false items g) ∧
          Recorded g.net (replayItems false items g).net (Item.allStatements outer items) from
    hall.2 items plain g outer ready
  apply Item.induct
  case classDecl =>
    intro name superclass body ih hplain g outer ready
    obtain ⟨hname, hbody⟩ := Bool.and_eq_true_iff.mp hplain
    exact ready.recorded_declare hname .classNode superclass fun inner => ih hbody inner _
  case moduleDecl =>
    intro name body ih hplain g outer ready
    obtain ⟨hname, hbody⟩ := Bool.and_eq_true_iff.mp hplain
    exact ready.recorded_declare hname .moduleNode none fun inner => ih hbody inner _
  case mixing =>
    intro mixin targets _ g outer ready
    exact ⟨.refl g, .of_mixing ready.layered outer mixin targets⟩
  case nil => exact fun _ g outer ready => ⟨.refl g, .refl ready.layered⟩
  case cons =>
    intro item rest ihItem ihRest hplain g outer ready
    obtain ⟨hitem, hrest⟩ := Bool.and_eq_true_iff.mp hplain
    obtain ⟨hsetting, hrecorded⟩ := ihItem hitem g outer ready
    obtain ⟨hsetting', hrecorded'⟩ := ihRest hrest _ outer (ready.recorded hsetting hrecorded)
    exact ⟨hsetting.trans hsetting', hrecorded.trans hrecorded'⟩

/-- What all files say is recorded, one file after the other. -/
theorem recorded_foldl_replay (files : List (List Item))
    (plain : ∀ file ∈ files, Item.allPlain file = true) (ready : Ready g ⟨[]⟩)
    (pass : g.pass = some .findNodes) :
    SameSetting g (files.foldl replay g) ∧
      Recorded g.net (files.foldl replay g).net (files.flatMap (Item.allStatements ⟨[]⟩)) := by
  induction files generalizing g with
  | nil => exact ⟨.refl g, .refl ready.layered⟩
  | cons file rest ih =>
      obtain ⟨hsetting, hrecorded⟩ := recorded_replayItems file (plain file List.mem_cons_self) ready
      have hreplay : g.replay file = replayItems false file g := by
        unfold replay
        rw [pass]
        rfl
      rw [← hreplay] at hsetting hrecorded
      obtain ⟨hsetting', hrecorded'⟩ := ih (fun other h => plain other (List.mem_cons_of_mem _ h))
        (ready.recorded hsetting hrecorded) (hsetting.pass.trans pass)
      rw [List.flatMap_cons]
      exact ⟨hsetting.trans hsetting', hrecorded.trans hrecorded'⟩

end Graph

end ClassAtlas
