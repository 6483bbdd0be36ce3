import ClassAtlas.Graph
import ClassAtlas.Proofs.Containment

/-!
# Folding

Folding moves a node with all that lies in it to another path. It does so from the inside out, node
by node, and each step may absorb a node or hang it into a part of the network that is still to be
visited. What holds nevertheless, whenever a folding ends (`Network.Folded`):

* the node does not lie in itself, and the network stays sound, so every node that is visited is
  there when it is visited;
* nodes that do not lie in the folded one keep their content and their container;
* a node that did lie in it, and is still there, has the new path or a longer one. So the node that
  is visited last never gets a container that lies in it, and containment stays a forest.

Conversely, in a forest every folding ends: the nodes on the way down are different from each other,
so there are no more of them than nodes (`foldInto_isSome`).
-/

namespace ClassAtlas

namespace Network

/-- What is true after `stale` has been folded into `path`. -/
structure Folded (before after : Network) (stale : NodeId) (path : Path) : Prop where
  apart : ∀ child, before.Relates stale child .containment → ¬ before.Under child stale
  sound : after.Sound
  frame : Frame before after (before.Under stale)
  deeper : ∀ id, before.Under stale id → after.Live id →
    (id = stale ∧ after.pathOf id = path) ∨
      path.segments.length < (after.pathOf id).segments.length
  forest : before.Acyclic → after.Acyclic

/-- What is true when the nodes in `done`, all of them contained in `stale`, have been folded. -/
structure Halfway (before now : Network) (stale : NodeId) (path : Path) (done : List NodeId) :
    Prop where
  sound : now.Sound
  frame : Frame before now (fun id => ∃ child ∈ done, before.Under child id)
  apart : ∀ child ∈ done, ¬ before.Under child stale
  deeper : ∀ id, (∃ child ∈ done, before.Under child id) → now.Live id →
    path.segments.length < (now.pathOf id).segments.length
  forest : before.Acyclic → now.Acyclic

/-- In the order of a listing, the next contained node is not one of those before it. -/
theorem Sound.next_target {net : Network} (sound : net.Sound) {stale child : NodeId}
    {done rest : List NodeId} (hall : (done ++ child :: rest) <+: net.targets stale .containment) :
    child ∉ done ∧ net.Relates stale child .containment := by
  have hnodup := (sound.nodup_targets stale .containment).sublist hall.sublist
  rw [List.nodup_append] at hnodup
  refine ⟨fun hin => hnodup.2.2 child hin child List.mem_cons_self rfl, ?_⟩
  exact mem_targets.mp (hall.subset (List.mem_append_right _ List.mem_cons_self))

namespace Halfway

variable {before now next : Network} {stale child : NodeId} {path : Path} {done : List NodeId}

theorem start (sound : before.Sound) : Halfway before before stale path [] where
  sound := sound
  frame := .refl (by rintro a b _ ⟨child, hchild, _⟩; cases hchild)
  apart := by simp
  deeper := by rintro id ⟨child, hchild, _⟩; cases hchild
  forest := id

theorem stale_kept (half : Halfway before now stale path done) :
    ¬ ∃ child ∈ done, before.Under child stale := by
  rintro ⟨child, hchild, hunder⟩
  exact half.apart child hchild hunder

/-- A contained node whose turn has not come is as it was. -/
theorem child_kept (half : Halfway before now stale path done) (sound : before.Sound)
    (hchild : before.Relates stale child .containment) (hturn : child ∉ done) :
    ¬ ∃ other ∈ done, before.Under other child := by
  rintro ⟨other, hother, hunder⟩
  -- another contained node could hold it only by holding `stale`, its one container
  have hne : other ≠ child := by
    rintro rfl
    exact hturn hother
  exact half.apart other hother (sound.under_container hunder hne hchild)

theorem child_contained (half : Halfway before now stale path done) (sound : before.Sound)
    (hchild : before.Relates stale child .containment) (hturn : child ∉ done) :
    now.Relates stale child .containment :=
  (half.frame.container child (half.child_kept sound hchild hturn) stale).mpr hchild

/-- A contained node does not hold its container, if its folding ends. -/
theorem child_apart (half : Halfway before now stale path done) (sound : before.Sound)
    (hchild : before.Relates stale child .containment) (hturn : child ∉ done)
    {place : Path} (folded : Folded now next child place) : ¬ before.Under child stale := by
  intro hunder
  have hstep := half.child_contained sound hchild hturn
  have hnow := (half.frame.under_iff half.stale_kept).mpr hunder
  rcases under_iff_head.mp hnow with rfl | ⟨inner, hinner, hrest⟩
  · exact half.sound.loopless _ _ hstep
  · exact folded.apart inner hinner (hrest.tail hstep)

/-- A moved node that does not lie in the contained node whose turn it is was moved before. -/
theorem moved_before (half : Halfway before now stale path done) {id : NodeId}
    (moved : ∃ other ∈ done ++ [child], before.Under other id) (hout : ¬ now.Under child id) :
    ∃ other ∈ done, before.Under other id := by
  obtain ⟨other, hother, hunder⟩ := moved
  by_contra hnone
  rcases List.mem_append.mp hother with h | h
  · exact hnone ⟨other, h, hunder⟩
  · rw [List.mem_singleton.mp h] at hunder
    exact hout ((half.frame.under_iff hnone).mpr hunder)

/-- Folding the next contained node. -/
theorem step (half : Halfway before now stale path done) (sound : before.Sound)
    (hchild : before.Relates stale child .containment) (hturn : child ∉ done) {name : String}
    (folded : Folded now next child (path.child name)) :
    Halfway before next stale path (done ++ [child]) := by
  have hclosed : ∀ a b, before.Relates a b .containment →
      (∃ other ∈ done ++ [child], before.Under other a) →
      ∃ other ∈ done ++ [child], before.Under other b := by
    rintro a b hab ⟨other, hother, hunder⟩
    exact ⟨other, hother, hunder.tail hab⟩
  have hold : Frame before now (fun id => ∃ other ∈ done ++ [child], before.Under other id) := by
    refine half.frame.mono hclosed ?_
    rintro id ⟨other, hother, hunder⟩
    exact ⟨other, List.mem_append_left _ hother, hunder⟩
  -- what now lies in `child` was folded before, or lay in it from the start
  have hsub : ∀ id, now.Under child id → ∃ other ∈ done ++ [child], before.Under other id := by
    intro id hid
    by_cases hmoved : ∃ other ∈ done, before.Under other id
    · obtain ⟨other, hother, hunder⟩ := hmoved
      exact ⟨other, List.mem_append_left _ hother, hunder⟩
    · exact ⟨child, by simp, (half.frame.under_iff hmoved).mp hid⟩
  have hnew : Frame now next (fun id => ∃ other ∈ done ++ [child], before.Under other id) :=
    folded.frame.mono hold.closed_after hsub
  refine ⟨folded.sound, hold.trans hnew, ?_, ?_, fun h => folded.forest (half.forest h)⟩
  · intro other hother
    rcases List.mem_append.mp hother with h | h
    · exact half.apart other h
    · rw [List.mem_singleton.mp h]
      exact half.child_apart sound hchild hturn folded
  · rintro id ⟨other, hother, hunder⟩ hlive
    by_cases hin : now.Under child id
    · rcases folded.deeper id hin hlive with ⟨_, hpath⟩ | hlonger
      · rw [hpath, Path.segments_child, List.length_append]
        simp
      · rw [Path.segments_child, List.length_append] at hlonger
        exact Nat.lt_of_le_of_lt (Nat.le_add_right _ _) hlonger
    · have hbefore := half.moved_before ⟨other, hother, hunder⟩ hin
      rw [folded.frame.pathOf hin]
      exact half.deeper id hbefore ((folded.frame.live_iff hin).mp hlive)

/-- When all contained nodes are folded, what lies in `stale` is `stale` and what was folded. -/
theorem moved_iff (all : ∀ child, child ∈ done ↔ before.Relates stale child .containment)
    {id : NodeId} :
    before.Under stale id ↔ stale = id ∨ ∃ child ∈ done, before.Under child id := by
  rw [under_iff_head]
  simp only [all]

/-- The nodes around `stale` are as they were, and they are around a contained node as well. -/
theorem around_child (half : Halfway before now stale path done) (sound : before.Sound)
    (hchild : before.Relates stale child .containment) (hturn : child ∉ done) {outer : NodeId}
    (live : before.Live outer) (around : before.Under outer stale) :
    now.Live outer ∧ now.Under outer child := by
  have hkept : ¬ ∃ other ∈ done, before.Under other outer := by
    rintro ⟨other, hother, hunder⟩
    exact half.apart other hother (hunder.trans around)
  exact ⟨(half.frame.live_iff hkept).mpr live,
    ((half.frame.under_iff half.stale_kept).mpr around).tail
      (half.child_contained sound hchild hturn)⟩

theorem stale_live (half : Halfway before now stale path done) (live : before.Live stale) :
    now.Live stale :=
  (half.frame.live_iff half.stale_kept).mpr live

/-- The moved nodes after a last change that concerns `stale` alone. -/
theorem frame_of_last {after : Network} (half : Halfway before now stale path done)
    (all : ∀ child, child ∈ done ↔ before.Relates stale child .containment)
    (content : ∀ id, id ≠ stale → after.content? id = now.content? id)
    (container : ∀ a b, a ≠ stale → b ≠ stale →
      (after.Relates a b .containment ↔ now.Relates a b .containment))
    (fromStale : ∀ b, after.Relates stale b .containment → now.Relates stale b .containment)
    (live : ∀ id, after.Live id → now.Live id) : Frame before after (before.Under stale) := by
  have hnow : Frame before now (before.Under stale) :=
    half.frame.mono (fun a b hab ha => ha.tail hab) (fun id h => (moved_iff all).mpr (.inr h))
  refine ⟨hnow.closed, ?_, ?_, fun id h => hnow.live id (live id h)⟩
  · intro id hid
    have hne : id ≠ stale := by
      rintro rfl
      exact hid (.refl before id)
    rw [content id hne, hnow.content id hid]
  · intro b hb a
    have hne : b ≠ stale := by
      rintro rfl
      exact hb (.refl before b)
    rw [← hnow.container b hb a]
    by_cases ha : a = stale
    · -- neither before nor after is `b` contained in `stale`
      subst ha
      have hno : ¬ now.Relates a b .containment := fun h =>
        hb (hnow.closed_after a b h (.refl before a))
      exact ⟨fun h => absurd (fromStale b h) hno, fun h => absurd h hno⟩
    · exact container a b ha hne

/-- The last step of a folding whose path is free. -/
theorem rekeyed (half : Halfway before now stale path done) (live : before.Live stale)
    (all : ∀ child, child ∈ done ↔ before.Relates stale child .containment)
    (free : ∀ other, now.lookup path = some other → other = stale) :
    Folded before (now.rekey stale path) stale path := by
  have hlive := half.stale_live live
  have hsound := half.sound.rekey hlive free
  have hframe : Frame before (now.rekey stale path) (before.Under stale) := by
    refine half.frame_of_last all ?_ ?_ ?_ ?_
    · exact fun id h => content?_rekey_of_ne h
    · exact fun a b _ hb => half.sound.relates_rekey_of_ne (.inl hb)
    · intro b hb
      have hne : b ≠ stale := by
        rintro rfl
        exact hsound.loopless b _ hb
      exact (half.sound.relates_rekey_of_ne (.inl hne)).mp hb
    · exact fun id h => live_rekey.mp h
  -- every node that lies in `stale` has a longer path, so none of them has the enclosing path
  have hlonger : ∀ id, id ≠ stale → now.Under stale id → now.Live id →
      path.segments.length < (now.pathOf id).segments.length := by
    intro id hne hunder hid
    by_cases hmoved : ∃ child ∈ done, before.Under child id
    · exact half.deeper id hmoved hid
    · rcases (moved_iff all).mp ((half.frame.under_iff hmoved).mp hunder) with h | h
      · exact absurd h.symm hne
      · exact absurd h hmoved
  refine ⟨fun child hchild => half.apart child ((all child).mpr hchild), hsound, hframe, ?_, ?_⟩
  · intro id hid hidlive
    by_cases hne : id = stale
    · subst hne
      exact .inl ⟨rfl, pathOf_rekey_self hlive⟩
    · right
      have hmoved : ∃ child ∈ done, before.Under child id := by
        rcases (moved_iff all).mp hid with h | h
        · exact absurd h.symm hne
        · exact h
      rw [pathOf_rekey_of_ne hne]
      exact half.deeper id hmoved (live_rekey.mp hidlive)
  · intro hforest
    have hedges : ∀ a b, (now.rekey stale path).Relates a b .containment →
        now.Relates a b .containment ∨
          (b = stale ∧ a ≠ stale ∧
            ∃ enclosing, path.parent? = some enclosing ∧ now.lookup enclosing = some a) := by
      intro a b hab
      by_cases hb : b = stale
      · subst hb
        rcases half.sound.relates_rekey_self hab with h | h
        · exact .inl h
        · exact .inr ⟨rfl, h⟩
      · exact .inl ((half.sound.relates_rekey_of_ne (.inl hb)).mp hab)
    by_cases hnew : ∃ outer, (now.rekey stale path).Relates outer stale .containment ∧
        ¬ now.Relates outer stale .containment
    · obtain ⟨outer, houter, hfresh⟩ := hnew
      have hdata := (hedges outer stale houter).resolve_left hfresh
      obtain ⟨_, hne, enclosing, hparent, hfound⟩ := hdata
      have honly : ∀ a b, (now.rekey stale path).Relates a b .containment →
          now.Relates a b .containment ∨ (a = outer ∧ b = stale) := by
        intro a b hab
        rcases hedges a b hab with h | ⟨rfl, _⟩
        · exact .inl h
        · exact .inr ⟨hsound.contained a outer b hab houter, rfl⟩
      refine (half.forest hforest).of_new_edge honly fun hunder => ?_
      have hlong := hlonger outer hne hunder (half.sound.live_of_lookup hfound)
      rw [half.sound.pathOf_of_lookup hfound] at hlong
      exact Nat.lt_asymm hlong (Path.length_of_parent? hparent)
    · refine (half.forest hforest).mono ?_
      intro a b hab
      rcases hedges a b hab with h | ⟨rfl, _⟩
      · exact h
      · by_contra hno
        exact hnew ⟨a, hab, hno⟩

/-- The last step of a folding whose path has another node. -/
theorem absorbed (half : Halfway before now stale path done)
    (all : ∀ child, child ∈ done ↔ before.Relates stale child .containment)
    {target : NodeId} (found : now.lookup path = some target) :
    Folded before (now.absorb stale target) stale path := by
  have hlive := half.sound.live_of_lookup found
  have hkept : ∀ id, id ≠ stale → (now.absorb stale target).content? id = now.content? id := by
    intro id hne
    rw [half.sound.content?_absorb stale hlive, if_neg hne]
  have hlives : ∀ id, (now.absorb stale target).Live id → id ≠ stale ∧ now.Live id :=
    fun id h => (half.sound.live_absorb stale hlive).mp h
  refine ⟨fun child hchild => half.apart child ((all child).mpr hchild),
    half.sound.absorb stale hlive, ?_, ?_, ?_⟩
  · refine half.frame_of_last all hkept ?_ ?_ (fun id h => (hlives id h).2)
    · intro a b ha hb
      rw [half.sound.relates_absorb hlive]
      exact ⟨fun h => h.1, fun h => ⟨h, ha, hb⟩⟩
    · exact fun b h => ((half.sound.relates_absorb hlive).mp h).1
  · intro id hid hidlive
    obtain ⟨hne, hnow⟩ := hlives id hidlive
    have hmoved : ∃ child ∈ done, before.Under child id := by
      rcases (moved_iff all).mp hid with h | h
      · exact absurd h.symm hne
      · exact h
    rw [half.sound.pathOf_absorb_of_ne hlive hne]
    exact .inr (half.deeper id hmoved hnow)
  · intro hforest
    exact (half.forest hforest).mono fun a b h => ((half.sound.relates_absorb hlive).mp h).1

end Halfway

end Network

namespace Graph

open Network

variable {g now after : Graph} {stale : NodeId} {path : Path}

/-- Folding a contained node: it goes to its name under the path. -/
def foldChild (fuel : Nat) (path : Path) (g : Graph) (child : NodeId) : Option Graph :=
  foldInto fuel g child (path.child (g.net.pathOf child).name)

theorem foldInto_succ (fuel : Nat) (g : Graph) (stale : NodeId) (path : Path) :
    foldInto (fuel + 1) g stale path =
      ((g.net.targets stale .containment).foldlM (foldChild fuel path) g).map
        (fun moved => moved.place stale path) := rfl

/-- An invariant of the loop over contained nodes, about the nodes that are done. -/
theorem foldlM_foldChild_invariant {fuel : Nat} {I : List NodeId → Graph → Prop} (all : List NodeId)
    (start : I [] g)
    (step : ∀ done child rest now next, all = done ++ child :: rest → I done now →
      foldChild fuel path now child = some next → I (done ++ [child]) next)
    (h : all.foldlM (foldChild fuel path) g = some after) : I all after := by
  suffices hall : ∀ todo done now, all = done ++ todo → I done now →
      todo.foldlM (foldChild fuel path) now = some after → I all after from
    hall all [] g rfl start h
  intro todo
  induction todo with
  | nil =>
      intro done now hdone hnow hlast
      rw [List.foldlM_nil] at hlast
      rw [hdone, List.append_nil, ← Option.some.inj hlast]
      exact hnow
  | cons child rest ih =>
      intro done now hdone hnow hlast
      rw [List.foldlM_cons] at hlast
      obtain ⟨next, hnext, hrest⟩ := Option.bind_eq_some_iff.mp hlast
      refine ih (done ++ [child]) next ?_ (step done child rest now next hdone hnow hnext) hrest
      rw [hdone, List.append_cons]

/-- A node is registered under a path that is free, or absorbed by the node that has it. -/
theorem place_cases (g : Graph) (stale : NodeId) (path : Path) :
    ((g.place stale path).net = g.net.rekey stale path ∧
      ∀ other, g.net.lookup path = some other → other = stale) ∨
    ∃ target, g.net.lookup path = some target ∧
      (g.place stale path).net = g.net.absorb stale target := by
  unfold place
  cases hfound : g.net.lookup path with
  | none => exact .inl ⟨rfl, by simp⟩
  | some target =>
      by_cases htarget : target = stale
      · refine .inl ⟨by simp only [if_pos htarget], fun other h => ?_⟩
        rw [← Option.some.inj h, htarget]
      · refine .inr ⟨target, rfl, ?_⟩
        simp only [if_neg htarget]
        split <;> rfl

/-- Folding some of the contained nodes, if folding one does what it should. -/
theorem halfway_of_foldlM {fuel : Nat} (sound : g.net.Sound)
    (one : ∀ (now after : Graph) (child : NodeId) (place : Path),
      foldInto fuel now child place = some after → now.net.Sound → now.net.Live child →
      Folded now.net after.net child place)
    (todo done : List NodeId) (hall : (done ++ todo) <+: g.net.targets stale .containment)
    (half : Halfway g.net now.net stale path done)
    (h : todo.foldlM (foldChild fuel path) now = some after) :
    Halfway g.net after.net stale path (done ++ todo) := by
  induction todo generalizing done now with
  | nil =>
      rw [List.foldlM_nil] at h
      rw [← Option.some.inj h, List.append_nil]
      exact half
  | cons child rest ih =>
      rw [List.foldlM_cons] at h
      obtain ⟨next, hnext, hrest⟩ := Option.bind_eq_some_iff.mp h
      obtain ⟨hturn, hchild⟩ := sound.next_target hall
      have hlive := (half.sound.ends _ _ _ (half.child_contained sound hchild hturn)).2
      have hfolded := one now next child _ hnext half.sound hlive
      rw [List.append_cons]
      exact ih (done ++ [child]) (by rwa [← List.append_cons]) (half.step sound hchild hturn hfolded)
        hrest

/-- Whenever a folding ends, it has done what a folding should do. -/
theorem folded_of_foldInto (fuel : Nat) (g after : Graph) (stale : NodeId) (path : Path)
    (h : foldInto fuel g stale path = some after) (sound : g.net.Sound) (live : g.net.Live stale) :
    Folded g.net after.net stale path := by
  induction fuel generalizing g after stale path with
  | zero => exact absurd h (by simp [foldInto])
  | succ fuel ih =>
      rw [foldInto_succ] at h
      obtain ⟨moved, hmoved, rfl⟩ := Option.map_eq_some_iff.mp h
      have half := halfway_of_foldlM sound (fun now after child place h hs hl =>
        ih now after child place h hs hl) (g.net.targets stale .containment) [] List.prefix_rfl
        (Halfway.start sound) hmoved
      rw [List.nil_append] at half
      rcases moved.place_cases stale path with ⟨hnet, hfree⟩ | ⟨target, hfound, hnet⟩
      · rw [hnet]
        exact half.rekeyed live (fun child => mem_targets) hfree
      · rw [hnet]
        exact half.absorbed (fun child => mem_targets) hfound

/-! ## Every folding in a forest ends -/

/-- In a forest the contained nodes are folded one after the other, if each of them can be folded
with `stale` above it. -/
theorem foldlM_isSome {fuel : Nat} {above : List NodeId} (sound : g.net.Sound)
    (forest : g.net.Acyclic) (live : g.net.Live stale) (distinct : (stale :: above).Nodup)
    (around : ∀ id ∈ above, g.net.Live id ∧ g.net.Under id stale)
    (bound : g.nodeCount ≤ fuel + (stale :: above).length)
    (one : ∀ (now : Graph) (child : NodeId) (place : Path), now.net.Sound → now.net.Acyclic →
      now.net.Live child → (child :: stale :: above).Nodup →
      (∀ id ∈ stale :: above, now.net.Live id ∧ now.net.Under id child) →
      now.nodeCount ≤ fuel + (stale :: above).length →
      ∃ after, foldInto fuel now child place = some after)
    (todo done : List NodeId) (hall : (done ++ todo) <+: g.net.targets stale .containment)
    (half : Halfway g.net now.net stale path done) :
    ∃ after, todo.foldlM (foldChild fuel path) now = some after := by
  induction todo generalizing done now with
  | nil => exact ⟨now, rfl⟩
  | cons child rest ih =>
      obtain ⟨hturn, hchild⟩ := sound.next_target hall
      have hstep := half.child_contained sound hchild hturn
      have hlive := (half.sound.ends _ _ _ hstep).2
      have hup : ∀ id ∈ stale :: above, now.net.Live id ∧ now.net.Under id child := by
        intro id hid
        rcases List.mem_cons.mp hid with rfl | h
        · exact half.around_child sound hchild hturn live (.refl _ _)
        · exact half.around_child sound hchild hturn (around id h).1 (around id h).2
      have hdistinct : (child :: stale :: above).Nodup := by
        refine List.nodup_cons.mpr ⟨fun hin => ?_, distinct⟩
        -- a node above `child` that is `child` would lie in itself
        rcases List.mem_cons.mp hin with rfl | h
        · exact half.sound.loopless _ _ hstep
        · have haround := (half.frame.under_iff half.stale_kept).mpr (around child h).2
          exact half.forest forest stale child hstep haround
      have hbound : now.nodeCount ≤ fuel + (stale :: above).length :=
        Nat.le_trans (half.frame.size_le half.sound) bound
      obtain ⟨next, hnext⟩ := one now child (path.child (now.net.pathOf child).name) half.sound
        (half.forest forest) hlive hdistinct hup hbound
      have hfolded := folded_of_foldInto fuel now next child _ hnext half.sound hlive
      obtain ⟨after, hafter⟩ := ih (done ++ [child]) (by rwa [← List.append_cons])
        (half.step sound hchild hturn hfolded)
      refine ⟨after, ?_⟩
      rw [List.foldlM_cons]
      exact Option.bind_eq_some_iff.mpr ⟨next, hnext, hafter⟩

/-- In a forest a folding ends if the bound leaves a step for each node that is not above. `above`
are the nodes around the folded one whose own folding has begun. -/
theorem foldInto_isSome (fuel : Nat) (g : Graph) (stale : NodeId) (path : Path)
    (above : List NodeId) (sound : g.net.Sound) (forest : g.net.Acyclic) (live : g.net.Live stale)
    (distinct : (stale :: above).Nodup)
    (around : ∀ id ∈ above, g.net.Live id ∧ g.net.Under id stale)
    (bound : g.nodeCount ≤ fuel + above.length) : ∃ after, foldInto fuel g stale path = some after := by
  induction fuel generalizing g stale path above with
  | zero =>
      have hle : (stale :: above).length ≤ g.nodeCount := by
        refine length_le_size distinct fun id hid => ?_
        rcases List.mem_cons.mp hid with rfl | h
        · exact live
        · exact (around id h).1
      rw [List.length_cons] at hle
      omega
  | succ fuel ih =>
      have hbound : g.nodeCount ≤ fuel + (stale :: above).length := by
        rw [List.length_cons]
        omega
      have hstart : Halfway g.net g.net stale path [] := .start sound
      obtain ⟨moved, hmoved⟩ := foldlM_isSome sound forest live distinct around hbound
        (fun now child place hs hf hl hd ha hb => ih now child place (stale :: above) hs hf hl hd ha hb)
        (g.net.targets stale .containment) [] List.prefix_rfl hstart
      exact ⟨moved.place stale path, by rw [foldInto_succ, hmoved]; rfl⟩

/-! ## Relocation -/

theorem isProvisional_settle {id : NodeId} :
    (g.settle stale).isProvisional id = true ↔ g.isProvisional id = true ∧ id ≠ stale := by
  simp [isProvisional, settle, List.mem_filter]

/-- The state in which the folding of a provisional node starts. -/
def foldStart (g : Graph) (stale : NodeId) (path : Path) : Graph :=
  (g.settle stale).note (.folding (g.net.pathOf stale) path)

/-- All that relocating a node does: nothing if it is not provisional, and else it is settled and, if
it is there, folded. -/
theorem relocate_cases (g : Graph) (stale : NodeId) (path : Path) :
    (g.isProvisional stale = false ∧ g.relocate (stale, path) = g) ∨
    (g.isProvisional stale = true ∧ ¬ g.net.Live stale ∧
      g.relocate (stale, path) = g.settle stale) ∨
    (g.isProvisional stale = true ∧ g.net.Live stale ∧
      g.relocate (stale, path) =
        (foldInto g.nodeCount (g.foldStart stale path) stale path).getD (g.foldStart stale path)) := by
  unfold relocate
  by_cases hprov : g.isProvisional stale = true
  · simp only [if_pos hprov]
    by_cases hlive : (g.settle stale).net.nodes.contains stale = true
    · rw [if_pos hlive]
      exact .inr (.inr ⟨hprov, (g.net.nodes.contains_iff stale).mp hlive, rfl⟩)
    · rw [if_neg hlive]
      refine .inr (.inl ⟨hprov, fun h => hlive ?_, rfl⟩)
      exact (g.net.nodes.contains_iff stale).mpr h
  · simp only [if_neg hprov]
    exact .inl ⟨by simpa using hprov, trivial⟩

/-- Placing changes the network and the journal and nothing else. -/
theorem place_rest (g : Graph) (stale : NodeId) (path : Path) :
    ∃ net journal, g.place stale path = { g with net, journal } := by
  unfold place
  split
  · exact ⟨_, _, rfl⟩
  · split
    · exact ⟨_, _, rfl⟩
    · simp only
      split <;> exact ⟨_, _, rfl⟩

/-- Folding changes the network and the journal and nothing else. -/
theorem foldInto_rest (fuel : Nat) (g after : Graph) (stale : NodeId) (path : Path)
    (h : foldInto fuel g stale path = some after) :
    ∃ net journal, after = { g with net, journal } := by
  induction fuel generalizing g after stale path with
  | zero => exact absurd h (by simp [foldInto])
  | succ fuel ih =>
      have hloop : ∀ (todo : List NodeId) (now moved : Graph),
          todo.foldlM (foldChild fuel path) now = some moved →
          ∃ net journal, moved = { now with net, journal } := by
        intro todo
        induction todo with
        | nil =>
            intro now moved hmoved
            rw [List.foldlM_nil] at hmoved
            exact ⟨now.net, now.journal, (Option.some.inj hmoved).symm⟩
        | cons child rest ihRest =>
            intro now moved hmoved
            rw [List.foldlM_cons] at hmoved
            obtain ⟨next, hnext, hrest⟩ := Option.bind_eq_some_iff.mp hmoved
            obtain ⟨_, _, rfl⟩ := ih now next child _ hnext
            obtain ⟨net, journal, rfl⟩ := ihRest _ moved hrest
            exact ⟨net, journal, rfl⟩
      rw [foldInto_succ] at h
      obtain ⟨moved, hmoved, rfl⟩ := Option.map_eq_some_iff.mp h
      obtain ⟨_, _, rfl⟩ := hloop _ g moved hmoved
      obtain ⟨net, journal, hplace⟩ := place_rest _ stale path
      exact ⟨net, journal, hplace⟩

/-- Relocating a node that is one of `moved` touches only `moved`, and nothing becomes provisional. -/
theorem relocate_spec (g : Graph) (relocation : NodeId × Path) (sound : g.net.Sound)
    (moved : NodeId → Prop) (closed : ∀ a b, g.net.Relates a b .containment → moved a → moved b)
    (root : g.isProvisional relocation.1 = true → moved relocation.1) :
    (g.relocate relocation).net.Sound ∧ Frame g.net (g.relocate relocation).net moved ∧
      (∀ id, (g.relocate relocation).isProvisional id = true → g.isProvisional id = true) ∧
      (g.net.Acyclic → (g.relocate relocation).net.Acyclic) := by
  obtain ⟨stale, path⟩ := relocation
  have hsettled : ∀ id, (g.settle stale).isProvisional id = true → g.isProvisional id = true :=
    fun id h => (isProvisional_settle.mp h).1
  rcases g.relocate_cases stale path with ⟨_, heq⟩ | ⟨_, _, heq⟩ | ⟨hprov, hlive, heq⟩
  · rw [heq]
    exact ⟨sound, .refl closed, fun _ h => h, fun h => h⟩
  · rw [heq]
    exact ⟨sound, .refl closed, hsettled, fun h => h⟩
  · rw [heq]
    cases hfold : foldInto g.nodeCount (g.foldStart stale path) stale path with
    | none => exact ⟨sound, .refl closed, hsettled, fun h => h⟩
    | some after =>
        have hfolded := folded_of_foldInto _ _ after stale path hfold sound hlive
        have hunder : ∀ id, g.net.Under stale id → moved id := by
          intro id h
          induction h with
          | refl => exact root hprov
          | @tail mid last _ hstep ih => exact closed mid last hstep ih
        refine ⟨hfolded.sound, hfolded.frame.mono closed hunder, fun id h => hsettled id ?_,
          hfolded.forest⟩
        obtain ⟨_, _, rfl⟩ := foldInto_rest _ _ after stale path hfold
        exact h

/-- Relocating one node after the other. -/
theorem foldl_relocate_spec (relocations : List (NodeId × Path)) (g : Graph) (sound : g.net.Sound)
    (moved : NodeId → Prop) (closed : ∀ a b, g.net.Relates a b .containment → moved a → moved b)
    (roots : ∀ relocation ∈ relocations, g.isProvisional relocation.1 = true → moved relocation.1) :
    (relocations.foldl relocate g).net.Sound ∧
      Frame g.net (relocations.foldl relocate g).net moved ∧
      (g.net.Acyclic → (relocations.foldl relocate g).net.Acyclic) := by
  induction relocations generalizing g with
  | nil => exact ⟨sound, .refl closed, fun h => h⟩
  | cons first rest ih =>
      obtain ⟨hsound, hframe, hprov, hforest⟩ :=
        g.relocate_spec first sound moved closed (roots first List.mem_cons_self)
      have hroots : ∀ relocation ∈ rest, (g.relocate first).isProvisional relocation.1 = true →
          moved relocation.1 := fun relocation hmem h =>
        roots relocation (List.mem_cons_of_mem _ hmem) (hprov _ h)
      obtain ⟨hsound', hframe', hforest'⟩ := ih (g.relocate first) hsound hframe.closed_after hroots
      exact ⟨hsound', hframe.trans hframe', fun h => hforest' (hforest h)⟩

end Graph

end ClassAtlas
