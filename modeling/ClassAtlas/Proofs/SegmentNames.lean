import ClassAtlas.Proofs.PathLaw
import ClassAtlas.Proofs.Placement

/-!
# Where the segments of paths come from

A build puts paths together from the names of the declarations and from nothing else: a node that is
declared gets the path around it and its own name, and a node that is folded keeps its last segment.
So what is true of every segment of the declared names is true of every segment of every node
(`Finished.madeOf`), and no node has a path without segments.
-/

namespace ClassAtlas

namespace Path

/-- A path that has segments, all of a certain kind. -/
def MadeOf (ok : String → Prop) (p : Path) : Prop :=
  p.segments ≠ [] ∧ ∀ segment ∈ p.segments, ok segment

variable {ok : String → Prop} {p : Path}

theorem MadeOf.child (h : ∀ segment ∈ p.segments, ok segment) {name : String} (hname : ok name) :
    (p.child name).MadeOf ok := by
  refine ⟨by simp, fun segment hmem => ?_⟩
  rcases List.mem_append.mp hmem with hold | hnew
  · exact h segment hold
  · exact List.mem_singleton.mp hnew ▸ hname

theorem MadeOf.name (h : p.MadeOf ok) : ok p.name := by
  have hlast : p.name = p.segments.getLast h.1 := by
    rw [Path.name, List.getLastD_eq_getLast?, List.getLast?_eq_some_getLast h.1, Option.getD_some]
  exact hlast ▸ h.2 _ (List.getLast_mem h.1)

end Path

namespace Item

mutual

/-- The names that a declaration and those in its body declare, in order. -/
def declaredNames : Item → List Reference
  | .classDecl name _ body => name :: allDeclaredNames body
  | .moduleDecl name body => name :: allDeclaredNames body
  | .mixing _ _ => []

/-- The names that declarations declare. -/
def allDeclaredNames : List Item → List Reference
  | [] => []
  | item :: rest => declaredNames item ++ allDeclaredNames rest

end

/-- All segments of the declared names are of a certain kind. -/
def NamedBy (ok : String → Prop) (files : List (List Item)) : Prop :=
  ∀ file ∈ files, ∀ name ∈ allDeclaredNames file, ∀ segment ∈ name.segments, ok segment

instance (ok : String → Prop) [DecidablePred ok] (files : List (List Item)) :
    Decidable (NamedBy ok files) :=
  inferInstanceAs (Decidable
    (∀ file ∈ files, ∀ name ∈ allDeclaredNames file, ∀ segment ∈ name.segments, ok segment))

end Item

/-! ## Networks -/

namespace Network

/-- The paths of all nodes are made of segments of a certain kind. -/
def MadeOf (ok : String → Prop) (net : Network) : Prop :=
  ∀ id, net.Live id → (net.pathOf id).MadeOf ok

variable {ok : String → Prop} {net : Network}

theorem MadeOf.lookup (made : net.MadeOf ok) (sound : net.Sound) {path : Path} {id : NodeId}
    (h : net.lookup path = some id) : path.MadeOf ok :=
  sound.pathOf_of_lookup h ▸ made id (sound.live_of_lookup h)

/-- A node that is put to a path of the kind is renamed to it or absorbed. -/
theorem MadeOf.placed (made : net.MadeOf ok) (sound : net.Sound) {stale : NodeId} {path : Path}
    (live : net.Live stale) (hpath : path.MadeOf ok) : (net.placed stale path).MadeOf ok := by
  intro id hid
  cases habsorber : net.absorber? stale path with
  | none =>
      rw [placed_of_none habsorber] at hid ⊢
      by_cases hsame : id = stale
      · rw [hsame, pathOf_rekey_self live]
        exact hpath
      · rw [pathOf_rekey_of_ne hsame]
        exact made id (live_rekey.mp hid)
  | some target =>
      have htarget := sound.live_of_lookup (absorber?_eq_some.mp habsorber).1
      rw [placed_of_some habsorber] at hid ⊢
      obtain ⟨hother, hlive⟩ := (sound.live_absorb stale htarget).mp hid
      rw [sound.pathOf_absorb_of_ne htarget hother]
      exact made id hlive

theorem MadeOf.restyled (made : net.MadeOf ok) (id : NodeId) (attributes : Style) :
    (Graph.restyled net id attributes).MadeOf ok := by
  intro other hother
  rw [Graph.pathOf_restyled]
  exact made other (live_modifyNode.mp hother)

theorem MadeOf.removeNode (made : net.MadeOf ok) (id : NodeId) : (net.removeNode id).MadeOf ok := by
  intro other hother
  obtain ⟨hne, hlive⟩ := live_removeNode.mp hother
  have hpath : (net.removeNode id).pathOf other = net.pathOf other := by
    unfold pathOf
    rw [node?_removeNode, if_neg hne]
  exact hpath ▸ made other hlive

end Network

namespace Graph

open Network

variable {ok : String → Prop} {g h after : Graph}

/-! ## Walks -/

/-- What the walks keep: the nodes, and the places to which nodes are to be moved, are made of segments
of the kind. -/
structure Spelled (ok : String → Prop) (g : Graph) : Prop extends Standing g where
  made : g.net.MadeOf ok
  queue : ∀ relocation ∈ g.relocations, relocation.2.MadeOf ok

/-- The path of a declaration is made of its name and, perhaps, the path around it. -/
theorem madeOf_declarationTarget {name : Reference} {path : Path} {outer : Option NodeId}
    (made : g.net.MadeOf ok) (standing : Standing g) (hname : ∀ segment ∈ name.segments, ok segment)
    (htarget : g.declarationTarget name = some (path, outer)) : path.MadeOf ok := by
  obtain ⟨hfilled, hspec⟩ := declarationTarget_spec standing.sound standing.scope htarget
  refine ⟨hfilled, ?_⟩
  unfold declarationTarget at htarget
  split at htarget
  · cases htarget
  · cases htarget
  · cases htarget
  · rename_i segment
    have hsegment : ok segment := hname segment (by simp [Reference.segments])
    split at htarget
    · obtain ⟨rfl, rfl⟩ := Prod.mk.inj (Option.some.inj htarget)
      exact (Path.MadeOf.child (made _ (hspec _ rfl).1).2 hsegment).2
    · obtain ⟨rfl, _⟩ := Prod.mk.inj (Option.some.inj htarget)
      exact fun other hother => List.mem_singleton.mp hother ▸ hsegment
  · rename_i segments hmany _
    split at htarget
    · obtain ⟨rfl, rfl⟩ := Prod.mk.inj (Option.some.inj htarget)
      have hne : segments ≠ [] := by
        rintro rfl
        contradiction
      have hlast : Path.MadeOf ok ⟨segments⟩ := ⟨hne, hname⟩
      exact (Path.MadeOf.child (made _ (hspec _ rfl).1).2 hlast.name).2
    · obtain ⟨rfl, _⟩ := Prod.mk.inj (Option.some.inj htarget)
      exact hname
  · obtain ⟨rfl, _⟩ := Prod.mk.inj (Option.some.inj htarget)
    exact hname

namespace Spelled

theorem enter {kind : Kind} {name : Reference} {path : Path} (spelled : Spelled ok g)
    (hname : ∀ segment ∈ name.segments, ok segment)
    (hopen : g.enter kind name = some (path, h)) : Spelled ok h := by
  have hstanding := spelled.toStanding.step (.enter hopen)
  obtain ⟨outer, htarget, rfl⟩ := enter_eq_some hopen
  have entered := g.entered_opened kind name path outer
  have hpath := madeOf_declarationTarget spelled.made spelled.toStanding hname htarget
  refine ⟨hstanding, fun id hlive => ?_, fun relocation hmem => ?_⟩
  · -- the path of a node is that of the declaration, or had a node before
    have hknown := entered.known_iff.mp ⟨id, hstanding.sound.lookup_pathOf hlive⟩
    rcases hknown with ⟨old, hold⟩ | hnew
    · exact spelled.made.lookup spelled.sound hold
    · rw [hnew]
      exact hpath
  · rcases mem_relocations_opened hmem with hold | ⟨_, _, hplace⟩
    · exact spelled.queue relocation hold
    · exact hplace ▸ hpath

theorem leave (spelled : Spelled ok g) : Spelled ok g.leave :=
  ⟨spelled.toStanding.step (.leave g), spelled.made, spelled.queue⟩

theorem of_kept (spelled : Spelled ok g) (steps : Steps g h) (kept : Kept g h) : Spelled ok h := by
  have hstanding := (steps.keeps (Q := fun _ => True) (fun _ _ _ _ _ => trivial) spelled.toStanding
    trivial).1
  refine ⟨hstanding, fun id hlive => ?_, ?_⟩
  · rw [live_iff_content?, kept.content, ← live_iff_content?] at hlive
    rw [pathOf_eq_content?, kept.content, ← pathOf_eq_content?]
    exact spelled.made id hlive
  · rw [kept.relocations]
    exact spelled.queue

theorem declare {kind : Kind} {name : Reference} {body : Graph → Graph} (spelled : Spelled ok g)
    (hname : ∀ segment ∈ name.segments, ok segment)
    (inside : ∀ inner, Spelled ok inner → Spelled ok (body inner)) :
    Spelled ok (g.declare kind name body).2 := by
  unfold Graph.declare
  cases hopen : g.enter kind name with
  | none => exact spelled
  | some entered => exact (inside entered.2 (spelled.enter hname hopen)).leave

end Spelled

/-- A walk over declarations with such names keeps to such segments. -/
theorem spelled_replay (relating : Bool) :
    (∀ item, (∀ name ∈ item.declaredNames, ∀ segment ∈ name.segments, ok segment) →
      ∀ g, Spelled ok g → Spelled ok (replayItem relating item g)) ∧
    ∀ items, (∀ name ∈ Item.allDeclaredNames items, ∀ segment ∈ name.segments, ok segment) →
      ∀ g, Spelled ok g → Spelled ok (replayItems relating items g) := by
  apply Item.induct
  case classDecl =>
    intro name superclass body ih hnames g start
    unfold replayItem
    refine start.declare (hnames name List.mem_cons_self) fun inner hinner => ?_
    refine ih (fun other hother => hnames other (List.mem_cons_of_mem _ hother)) _ ?_
    cases relating with
    | false => exact hinner
    | true => exact hinner.of_kept (steps_inheritFrom inner superclass) (.inheritFrom inner superclass)
  case moduleDecl =>
    intro name body ih hnames g start
    unfold replayItem
    refine start.declare (hnames name List.mem_cons_self) fun inner hinner => ?_
    exact ih (fun other hother => hnames other (List.mem_cons_of_mem _ hother)) inner hinner
  case mixing =>
    intro mixin targets _ g start
    unfold replayItem
    cases relating with
    | false => exact start
    | true => exact start.of_kept (steps_mixAll g mixin targets) (.mixAll g mixin targets)
  case nil => exact fun _ _ start => start
  case cons =>
    intro item rest ihItem ihRest hnames g start
    unfold replayItems
    refine ihRest (fun name hname => hnames name (List.mem_append_right _ hname)) _ ?_
    exact ihItem (fun name hname => hnames name (List.mem_append_left _ hname)) g start

theorem spelled_foldl_replay {files : List (List Item)} (named : Item.NamedBy ok files) (g : Graph)
    (start : Spelled ok g) : Spelled ok (files.foldl replay g) := by
  induction files generalizing g with
  | nil => exact start
  | cons file rest ih =>
      refine ih (fun other hother => named other (List.mem_cons_of_mem _ hother)) _ ?_
      exact (spelled_replay _).2 file (named file List.mem_cons_self) g start

/-! ## Folds -/

/-- A node that is folded takes along what it contains, each under its last segment. -/
theorem madeOf_foldInto (fuel : Nat) (g after : Graph) (stale : NodeId) (path : Path)
    (h : foldInto fuel g stale path = some after) (sound : g.net.Sound) (live : g.net.Live stale)
    (made : g.net.MadeOf ok) (hpath : path.MadeOf ok) : after.net.MadeOf ok := by
  induction fuel generalizing g after stale path with
  | zero => simp [foldInto] at h
  | succ fuel ih =>
      rw [foldInto_succ] at h
      obtain ⟨moved, hmoved, rfl⟩ := Option.map_eq_some_iff.mp h
      have hinner : moved.net.MadeOf ok := by
        refine (foldlM_foldChild_invariant
          (I := fun done now => done.foldlM (foldChild fuel path) g = some now ∧ now.net.MadeOf ok)
          (g.net.targets stale .containment) ⟨rfl, made⟩ ?_ hmoved).2
        rintro done child rest now next hall ⟨hdone, hmade⟩ hnext
        obtain ⟨hsound, hlive⟩ := turn_live sound hall hdone
        refine ⟨by rw [List.foldlM_append, hdone]; simp [hnext], ?_⟩
        exact ih now next child _ hnext hsound hlive hmade (.child hpath.2 (hmade child hlive).name)
      obtain ⟨hsound, hlive⟩ := last_live sound live hmoved
      rw [net_place]
      exact hinner.placed hsound hlive hpath

theorem madeOf_relocate {relocation : NodeId × Path} (sound : g.net.Sound) (made : g.net.MadeOf ok)
    (hpath : relocation.2.MadeOf ok) : (g.relocate relocation).net.MadeOf ok := by
  obtain ⟨stale, path⟩ := relocation
  rcases g.relocate_cases stale path with ⟨_, heq⟩ | ⟨_, _, heq⟩ | ⟨_, hlive, heq⟩
  · rwa [heq]
  · rwa [heq]
  · rw [heq]
    cases hfold : foldInto g.nodeCount (g.foldStart stale path) stale path with
    | none => exact made
    | some folded => exact madeOf_foldInto _ _ folded stale path hfold sound hlive made hpath

theorem madeOf_foldl_relocate (relocations : List (NodeId × Path)) (g : Graph) (sound : g.net.Sound)
    (made : g.net.MadeOf ok) (queue : ∀ relocation ∈ relocations, relocation.2.MadeOf ok) :
    (relocations.foldl relocate g).net.MadeOf ok := by
  induction relocations generalizing g with
  | nil => exact made
  | cons first rest ih =>
      have hsound := (g.relocate_spec first sound (fun _ => True) (fun _ _ _ _ => trivial)
        (fun _ => trivial)).1
      exact ih _ hsound (madeOf_relocate sound made (queue first List.mem_cons_self))
        fun relocation hmem => queue relocation (List.mem_cons_of_mem _ hmem)

theorem Spelled.endPass (spelled : Spelled ok g) : g.endPass.net.MadeOf ok := by
  have hclosed : g.closed.net = g.net := by rw [closed_eq]
  have hsound : g.closed.net.Sound := hclosed ▸ spelled.sound
  have hmade : g.closed.net.MadeOf ok := hclosed ▸ spelled.made
  rw [endPass_eq]
  split
  · exact madeOf_foldl_relocate g.relocations _ hsound hmade spelled.queue
  · exact hmade

/-! ## Builds -/

variable {ignored : List Matcher} {styles : List (Matcher × Style)} {files : List (List Item)}

theorem madeOf_built (named : Item.NamedBy ok files) : (built ignored styles files).net.MadeOf ok := by
  have hbegun : Spelled ok (nodesBegun ignored styles) := by
    refine ⟨(standing_ruled ignored styles).beginPass .findNodes, fun id hlive => ?_, ?_⟩
    · cases hlive
    · simp [nodesBegun, beginPass, note, ruled, Graph.empty]
  have hfirst := spelled_foldl_replay named _ hbegun
  obtain ⟨journal, hbetween⟩ := runPass_findNodes_eq (ruled ignored styles) files
  have hsecond : Spelled ok (relationsBegun ignored styles files) := by
    unfold relationsBegun
    rw [hbetween]
    exact ⟨⟨hfirst.sound, by simp [beginPass, note]⟩, hfirst.made, hfirst.queue⟩
  rw [built_eq]
  exact (spelled_foldl_replay named _ hsecond).endPass

/-- The nodes of a graph that is built from names with such segments have paths of such segments. -/
theorem Finished.madeOf (named : Item.NamedBy ok files)
    (finished : Finished (Graph.built ignored styles files) g) : g.net.MadeOf ok :=
  finished.keeps (fun _ id attributes made => made.restyled id attributes)
    (fun _ id _ made => made.removeNode id) (reachable_built ignored styles files) (madeOf_built named)

end Graph

end ClassAtlas
