import ClassAtlas.Proofs.BuildStates

/-!
# Containment follows paths

A contained node has the path of its container and one name more (`Network.FollowsPaths`). The walks
keep this law whatever they meet. The folds at the end of the second pass break it and mend it: a node
is moved before its container is, so for a time it has a path under the one that its container is about
to get.

A folding mends the law for all that lies in the folded node (`Network.Followed`). The folded node
itself may keep a container that it had before, and then the law is lost. So the law holds in all states
of a build if no node that waits for its relocation has a container, and it can fail if one has.
-/

namespace ClassAtlas

namespace Network

variable {net before now next after : Network} {stale child : NodeId} {path : Path}
  {done : List NodeId}

/-! ## The law -/

/-- The node has the path of its container, if it has one, and one name more. -/
def FollowsAt (net : Network) (inner : NodeId) : Prop :=
  ∀ outer, net.Relates outer inner .containment →
    net.pathOf inner = (net.pathOf outer).child (net.pathOf inner).name

/-- Every contained node has the path of its container and one name more. -/
def FollowsPaths (net : Network) : Prop :=
  ∀ inner, net.FollowsAt inner

theorem FollowsAt.length_eq {outer inner : NodeId} (follows : net.FollowsAt inner)
    (h : net.Relates outer inner .containment) :
    (net.pathOf inner).segments.length = (net.pathOf outer).segments.length + 1 := by
  rw [follows outer h]
  simp

/-- Only the paths and the containment matter for the law. -/
theorem FollowsPaths.mono (follows : before.FollowsPaths)
    (edges : ∀ a b, after.Relates a b .containment → before.Relates a b .containment)
    (paths : ∀ a b, after.Relates a b .containment →
      after.pathOf a = before.pathOf a ∧ after.pathOf b = before.pathOf b) : after.FollowsPaths := by
  intro inner outer h
  obtain ⟨houter, hinner⟩ := paths outer inner h
  rw [houter, hinner]
  exact follows inner outer (edges outer inner h)

/-- Paths get longer on the way in, so no node lies in itself. -/
theorem FollowsPaths.acyclic (follows : net.FollowsPaths) : net.Acyclic := by
  have hlonger : ∀ a b, net.Under a b →
      (net.pathOf a).segments.length ≤ (net.pathOf b).segments.length := by
    intro a b h
    induction h with
    | refl => exact Nat.le_refl _
    | @tail mid last _ hstep ih =>
        have hlength := (follows last).length_eq hstep
        omega
  intro a b hab hba
  have hlength := (follows b).length_eq hab
  have hle := hlonger b a hba
  omega

theorem FollowsPaths.restyled (follows : net.FollowsPaths) (id : NodeId) (attributes : Style) :
    (Graph.restyled net id attributes).FollowsPaths :=
  follows.mono (fun _ _ hab => hab) fun a b _ =>
    ⟨Graph.pathOf_restyled net id a attributes, Graph.pathOf_restyled net id b attributes⟩

theorem FollowsPaths.removeNode (follows : net.FollowsPaths) (sound : net.Sound) (id : NodeId) :
    (net.removeNode id).FollowsPaths := by
  have hpath : ∀ other, other ≠ id → (net.removeNode id).pathOf other = net.pathOf other := by
    intro other hne
    unfold pathOf
    rw [node?_removeNode, if_neg hne]
  refine follows.mono (fun a b hab => (sound.relates_removeNode.mp hab).1) fun a b hab => ?_
  obtain ⟨_, ha, hb⟩ := sound.relates_removeNode.mp hab
  exact ⟨hpath a ha, hpath b hb⟩

/-- A change that leaves a node alone leaves the law at that node alone. -/
theorem Frame.followsAt {moved : NodeId → Prop} (frame : Frame before after moved) {inner : NodeId}
    (kept : ¬ moved inner) (follows : before.FollowsAt inner) : after.FollowsAt inner := by
  intro outer h
  have hbefore := (frame.container inner kept outer).mp h
  have houter : ¬ moved outer := fun hm => kept (frame.closed outer inner hbefore hm)
  rw [frame.pathOf kept, frame.pathOf houter]
  exact follows outer hbefore

/-! ## Folding -/

/-- What is true of the law after `stale` has been folded into `path`: it holds at every node that lies
in `stale`; and `stale` has the path and a container that fits, or one that it had before. -/
structure Followed (before after : Network) (stale : NodeId) (path : Path) : Prop where
  inside : ∀ id, before.Under stale id → id ≠ stale → after.Live id → after.FollowsAt id
  root : after.Live stale → after.pathOf stale = path ∧
    ∀ outer, after.Relates outer stale .containment →
      path = (after.pathOf outer).child path.name ∨ before.Relates outer stale .containment

/-- The law when the nodes in `done` have been folded: a folded node in another container than `stale`
follows it, and one in `stale` has the path that it should have once `stale` has been moved. -/
def Following (before now : Network) (stale : NodeId) (path : Path) (done : List NodeId) : Prop :=
  ∀ id, (∃ child ∈ done, before.Under child id) → now.Live id →
    ∀ outer, now.Relates outer id .containment →
      (outer ≠ stale → now.pathOf id = (now.pathOf outer).child (now.pathOf id).name) ∧
      (outer = stale → now.pathOf id = path.child (now.pathOf id).name)

namespace Following

/-- When the turn of a contained node comes, the law holds at all that lies in it, since none of these
nodes is contained in `stale`. -/
theorem inside_child (following : Following before now stale path done)
    (half : Halfway before now stale path done)
    (follows : ∀ id, before.Under stale id → id ≠ stale → before.FollowsAt id)
    (hchild : before.Relates stale child .containment)
    (apart : ¬ before.Under child stale) {id : NodeId} (hid : now.Under child id) (hne : id ≠ child) :
    now.FollowsAt id := by
  by_cases hmoved : ∃ other ∈ done, before.Under other id
  · intro outer houter
    refine (following id hmoved (half.sound.ends _ _ _ houter).2 outer houter).1 ?_
    rintro rfl
    -- else `child` would hold its own container
    have hunder := half.sound.under_container hid hne.symm houter
    exact apart ((half.frame.under_iff half.stale_kept).mp hunder)
  · have hunder := (half.frame.under_iff hmoved).mp hid
    refine half.frame.followsAt hmoved (follows id (hunder.head hchild) ?_)
    rintro rfl
    exact apart hunder

/-- Folding the next contained node. The path of `stale` is not longer than the new one, so no node
that ends below the new place of `child` is contained in `stale`. -/
theorem step (following : Following before now stale path done)
    (half : Halfway before now stale path done) (sound : before.Sound)
    (hchild : before.Relates stale child .containment) (hturn : child ∉ done)
    (short : (before.pathOf stale).segments.length ≤ path.segments.length) {name : String}
    (folded : Folded now next child (path.child name))
    (followed : Followed now next child (path.child name)) :
    Following before next stale path (done ++ [child]) := by
  have hapart := half.child_apart sound hchild hturn folded
  have hstale : ¬ now.Under child stale := fun h =>
    hapart ((half.frame.under_iff half.stale_kept).mp h)
  have hpath : next.pathOf stale = before.pathOf stale := by
    rw [folded.frame.pathOf hstale, half.frame.pathOf half.stale_kept]
  intro id hmoved hlive outer houter
  by_cases hin : now.Under child id
  · by_cases hid : id = child
    · subst hid
      obtain ⟨hplace, hroot⟩ := followed.root hlive
      have hdue : next.pathOf id = path.child (next.pathOf id).name := by
        rw [hplace, Path.name_child]
      refine ⟨fun hne => ?_, fun _ => hdue⟩
      rcases hroot outer houter with h | h
      · rw [hplace]
        exact h
      · -- its container from before is `stale`
        have hsame := half.sound.contained _ _ _ h (half.child_contained sound hchild hturn)
        exact absurd hsame hne
    · have hfollows := followed.inside id hin hid hlive
      refine ⟨fun _ => hfollows outer houter, fun heq => ?_⟩
      subst heq
      have hlength := hfollows.length_eq houter
      rcases folded.deeper id hin hlive with ⟨h, _⟩ | hlonger
      · exact absurd h hid
      · rw [hpath] at hlength
        rw [Path.segments_child, List.length_append, List.length_singleton] at hlonger
        omega
  · -- not touched by this folding, so it was folded before
    have hbefore := half.moved_before hmoved hin
    have hnow := (folded.frame.container id hin outer).mp houter
    have hout : ¬ now.Under child outer := fun h => hin (h.tail hnow)
    have hlaw := following id hbefore ((folded.frame.live_iff hin).mp hlive) outer hnow
    rw [folded.frame.pathOf hin, folded.frame.pathOf hout]
    exact hlaw

/-- The last step of a folding whose path is free. -/
theorem rekeyed (following : Following before now stale path done)
    (half : Halfway before now stale path done) (live : before.Live stale)
    (all : ∀ child, child ∈ done ↔ before.Relates stale child .containment) :
    Followed before (now.rekey stale path) stale path := by
  have hlive := half.stale_live live
  have hplace : (now.rekey stale path).pathOf stale = path := pathOf_rekey_self hlive
  refine ⟨?_, fun _ => ⟨hplace, ?_⟩⟩
  · intro id hid hne hidlive outer houter
    have hmoved : ∃ child ∈ done, before.Under child id :=
      ((Halfway.moved_iff all).mp hid).resolve_left (Ne.symm hne)
    have hnow := (half.sound.relates_rekey_of_ne (.inl hne)).mp houter
    obtain ⟨hother, hstale⟩ := following id hmoved (live_rekey.mp hidlive) outer hnow
    rw [pathOf_rekey_of_ne hne]
    by_cases hout : outer = stale
    · rw [hout, hplace]
      exact hstale hout
    · rw [pathOf_rekey_of_ne hout]
      exact hother hout
  · intro outer houter
    rcases half.sound.relates_rekey_self houter with h | ⟨hne, enclosing, hparent, hfound⟩
    · exact .inr ((half.frame.container stale half.stale_kept outer).mp h)
    · left
      rw [pathOf_rekey_of_ne hne, half.sound.pathOf_of_lookup hfound]
      exact (Path.parent?_eq_some hparent).1

/-- The last step of a folding whose path has another node. -/
theorem absorbed (following : Following before now stale path done)
    (half : Halfway before now stale path done)
    (all : ∀ child, child ∈ done ↔ before.Relates stale child .containment)
    {target : NodeId} (found : now.lookup path = some target) :
    Followed before (now.absorb stale target) stale path := by
  have hlive := half.sound.live_of_lookup found
  refine ⟨?_, fun hstale => absurd rfl ((half.sound.live_absorb stale hlive).mp hstale).1⟩
  intro id hid hne hidlive outer houter
  have hmoved : ∃ child ∈ done, before.Under child id :=
    ((Halfway.moved_iff all).mp hid).resolve_left (Ne.symm hne)
  obtain ⟨hnow, hout, _⟩ := (half.sound.relates_absorb hlive).mp houter
  have hnowlive := ((half.sound.live_absorb stale hlive).mp hidlive).2
  rw [half.sound.pathOf_absorb_of_ne hlive hne, half.sound.pathOf_absorb_of_ne hlive hout]
  exact (following id hmoved hnowlive outer hnow).1 hout

end Following

/-- After a folding of a node without a container the law holds again. -/
theorem Followed.followsPaths (followed : Followed before after stale path)
    (folded : Folded before after stale path) (follows : before.FollowsPaths)
    (detached : ∀ outer, ¬ before.Relates outer stale .containment) : after.FollowsPaths := by
  intro inner
  by_cases hin : before.Under stale inner
  · intro outer houter
    have hlive := (folded.sound.ends _ _ _ houter).2
    by_cases hroot : inner = stale
    · subst hroot
      obtain ⟨hplace, hfits⟩ := followed.root hlive
      rw [hplace]
      exact (hfits outer houter).resolve_right (detached outer)
    · exact followed.inside inner hin hroot hlive outer houter
  · exact folded.frame.followsAt hin (follows inner)

end Network

namespace Graph

open Network

variable {g h now after inner : Graph} {stale : NodeId} {path : Path} {name : Reference}
  {ignored : List Matcher} {styles : List (Matcher × Style)} {files : List (List Item)}

/-- The turn of one contained node, if folding it mends the law. -/
theorem following_turn {fuel : Nat} {next : Graph} {child : NodeId} {done rest : List NodeId}
    (sound : g.net.Sound)
    (follows : ∀ id, g.net.Under stale id → id ≠ stale → g.net.FollowsAt id)
    (short : (g.net.pathOf stale).segments.length ≤ path.segments.length)
    (hall : g.net.targets stale .containment = done ++ child :: rest)
    (half : Halfway g.net now.net stale path done)
    (following : Following g.net now.net stale path done)
    (hnext : foldChild fuel path now child = some next)
    (one : now.net.Live child →
      (∀ id, now.net.Under child id → id ≠ child → now.net.FollowsAt id) →
      (now.net.pathOf child).segments.length ≤
        (path.child (now.net.pathOf child).name).segments.length →
      Followed now.net next.net child (path.child (now.net.pathOf child).name)) :
    Halfway g.net next.net stale path (done ++ [child]) ∧
      Following g.net next.net stale path (done ++ [child]) := by
  have hprefix : (done ++ child :: rest) <+: g.net.targets stale .containment :=
    ⟨[], by rw [hall, List.append_nil]⟩
  obtain ⟨hturn, hchild⟩ := sound.next_target hprefix
  have hlive := (half.sound.ends _ _ _ (half.child_contained sound hchild hturn)).2
  have hfolded := folded_of_foldInto fuel now next child _ hnext half.sound hlive
  have hapart := half.child_apart sound hchild hturn hfolded
  have hne : child ≠ stale := by
    rintro rfl
    exact sound.loopless _ _ hchild
  have hshort : (now.net.pathOf child).segments.length ≤
      (path.child (now.net.pathOf child).name).segments.length := by
    have hlength := (follows child (.head hchild (.refl _ child)) hne).length_eq hchild
    rw [half.frame.pathOf (half.child_kept sound hchild hturn), hlength, Path.segments_child,
      List.length_append, List.length_singleton]
    omega
  have hfollowed := one hlive
    (fun id hid hidne => following.inside_child half follows hchild hapart hid hidne) hshort
  exact ⟨half.step sound hchild hturn hfolded,
    following.step half sound hchild hturn short hfolded hfollowed⟩

/-- A folding to a path that is not shorter mends the law for all that lies in the folded node. -/
theorem followed_of_foldInto (fuel : Nat) (g after : Graph) (stale : NodeId) (path : Path)
    (h : foldInto fuel g stale path = some after) (sound : g.net.Sound) (live : g.net.Live stale)
    (follows : ∀ id, g.net.Under stale id → id ≠ stale → g.net.FollowsAt id)
    (short : (g.net.pathOf stale).segments.length ≤ path.segments.length) :
    Followed g.net after.net stale path := by
  induction fuel generalizing g after stale path with
  | zero => simp [foldInto] at h
  | succ fuel ih =>
      rw [foldInto_succ] at h
      obtain ⟨moved, hmoved, rfl⟩ := Option.map_eq_some_iff.mp h
      have hstart : Following g.net g.net stale path [] := by
        intro id hmem
        simp at hmem
      obtain ⟨half, following⟩ := foldlM_foldChild_invariant
        (I := fun done now => Halfway g.net now.net stale path done ∧
          Following g.net now.net stale path done)
        (g.net.targets stale .containment) ⟨.start sound, hstart⟩
        (fun done child rest now next hall hnow hnext =>
          following_turn sound follows short hall hnow.1 hnow.2 hnext
            (ih now next child _ hnext hnow.1.sound)) hmoved
      rcases moved.place_cases stale path with ⟨hnet, _⟩ | ⟨target, hfound, hnet⟩
      · rw [hnet]
        exact following.rekeyed half live (fun child => mem_targets)
      · rw [hnet]
        exact following.absorbed half (fun child => mem_targets) hfound

/-! ## Relocations -/

/-- A relocation that is safe to carry out: its node has no container, and the new path is not shorter
than the one it has. -/
structure Movable (net : Network) (relocation : NodeId × Path) : Prop where
  detached : ∀ outer, ¬ net.Relates outer relocation.1 .containment
  short : (net.pathOf relocation.1).segments.length ≤ relocation.2.segments.length

/-- A node without a container lies in no other node, so a change of what lies in another node leaves
its relocation alone. -/
theorem Movable.kept {before after : Network} {relocation : NodeId × Path}
    (movable : Movable before relocation) (frame : Frame before after (before.Under stale))
    (other : relocation.1 ≠ stale) : Movable after relocation := by
  have hkept : ¬ before.Under stale relocation.1 := by
    intro hunder
    rcases Relation.ReflTransGen.cases_tail hunder with heq | ⟨last, _, hlast⟩
    · exact other heq
    · exact movable.detached last hlast
  refine ⟨fun outer h => ?_, ?_⟩
  · exact movable.detached outer ((frame.container _ hkept outer).mp h)
  · rw [frame.pathOf hkept]
    exact movable.short

/-- Carrying out a safe relocation keeps the law, and leaves the others that wait as safe as they
were. -/
theorem follows_relocate (sound : g.net.Sound) (follows : g.net.FollowsPaths)
    (relocation : NodeId × Path)
    (movable : g.isProvisional relocation.1 = true → Movable g.net relocation) :
    (g.relocate relocation).net.FollowsPaths ∧
      ∀ other : NodeId × Path, (g.relocate relocation).isProvisional other.1 = true →
        g.isProvisional other.1 = true ∧
          (Movable g.net other → Movable (g.relocate relocation).net other) := by
  obtain ⟨stale, path⟩ := relocation
  rcases g.relocate_cases stale path with ⟨_, heq⟩ | ⟨_, _, heq⟩ | ⟨hprov, hlive, heq⟩
  · rw [heq]
    exact ⟨follows, fun other h => ⟨h, id⟩⟩
  · rw [heq]
    exact ⟨follows, fun other h => ⟨(isProvisional_settle.mp h).1, id⟩⟩
  · rw [heq]
    cases hfold : foldInto g.nodeCount (g.foldStart stale path) stale path with
    | none => exact ⟨follows, fun other h => ⟨(isProvisional_settle.mp h).1, id⟩⟩
    | some after =>
        have hmovable := movable hprov
        have hfolded := folded_of_foldInto _ _ after stale path hfold sound hlive
        have hfollowed := followed_of_foldInto _ _ after stale path hfold sound hlive
          (fun id _ _ => follows id) hmovable.short
        refine ⟨hfollowed.followsPaths hfolded follows hmovable.detached, fun other h => ?_⟩
        obtain ⟨_, _, hrest⟩ := foldInto_rest _ _ after stale path hfold
        have hsettled : (g.settle stale).isProvisional other.1 = true := by
          rw [Option.getD_some, hrest] at h
          exact h
        obtain ⟨hother, hne⟩ := isProvisional_settle.mp hsettled
        exact ⟨hother, fun hmov => hmov.kept hfolded.frame hne⟩

theorem follows_foldl_relocate (relocations : List (NodeId × Path)) (g : Graph)
    (sound : g.net.Sound) (follows : g.net.FollowsPaths)
    (movable : ∀ relocation ∈ relocations, g.isProvisional relocation.1 = true →
      Movable g.net relocation) : (relocations.foldl relocate g).net.FollowsPaths := by
  induction relocations generalizing g with
  | nil => exact follows
  | cons first rest ih =>
      have hsound := (g.relocate_spec first sound (fun _ => True) (fun _ _ _ _ => trivial)
        (fun _ => trivial)).1
      obtain ⟨hfollows, hothers⟩ :=
        follows_relocate sound follows first (movable first List.mem_cons_self)
      refine ih (g.relocate first) hsound hfollows fun relocation hmem hprov => ?_
      obtain ⟨hwas, hkept⟩ := hothers relocation hprov
      exact hkept (movable relocation (List.mem_cons_of_mem _ hmem) hwas)

/-! ## The walks -/

/-- What the walks keep: the law, and that every relocation leads from a node that is there to a path
that is not shorter. -/
structure Queued (g : Graph) : Prop where
  follows : g.net.FollowsPaths
  queue : ∀ relocation ∈ g.relocations, g.net.Live relocation.1 ∧
    (g.net.pathOf relocation.1).segments.length ≤ relocation.2.segments.length

/-- Going down, the path grows by the names. -/
theorem pathOf_of_descend {net : Network} (sound : net.Sound) {segments : List String}
    {start id : NodeId} (h : net.descend start segments = some id) :
    (net.pathOf id).segments = (net.pathOf start).segments ++ segments := by
  induction segments generalizing start with
  | nil =>
      obtain rfl := Option.some.inj h
      simp
  | cons segment rest ih =>
      unfold descend at h
      split at h
      · rename_i inner hinner
        rw [ih h, sound.pathOf_of_lookup hinner]
        simp
      · cases h

/-- The path of the node that a relative name denotes ends in that name. -/
theorem suffix_of_resolveSegments {net : Network} (sound : net.Sound) {segments : List String}
    {origin : Option NodeId} {id : NodeId} (h : net.resolveSegments segments origin = some id) :
    segments <:+ (net.pathOf id).segments := by
  unfold resolveSegments at h
  split at h
  · cases h
  · rename_i segment rest
    split at h
    · rename_i base hbase
      have hends : ∃ front, (net.pathOf base).segments = front ++ [segment] := by
        unfold resolveName at hbase
        split at hbase
        · rename_i found hfound
          obtain ⟨scope, _, hscope⟩ := List.exists_of_findSome?_eq_some hfound
          rw [← Option.some.inj hbase, sound.pathOf_of_lookup hscope]
          exact ⟨_, rfl⟩
        · rw [sound.pathOf_of_lookup hbase]
          exact ⟨[], rfl⟩
      obtain ⟨front, hfront⟩ := hends
      refine ⟨front, ?_⟩
      rw [pathOf_of_descend sound h, hfront]
      simp
    · cases h

/-- The path of a qualified declaration ends in its name. -/
theorem suffix_of_declarationTarget (sound : g.net.Sound) (qualified : name.isAmbiguous = true)
    {outer : Option NodeId} (h : g.declarationTarget name = some (path, outer)) :
    name.segments <:+ path.segments := by
  unfold declarationTarget at h
  split at h
  · cases h
  · cases h
  · cases h
  · simp [Reference.isAmbiguous] at qualified
  · rename_i segments hmany _
    split at h
    · rename_i around haround
      obtain ⟨rfl, _⟩ := Prod.mk.inj (Option.some.inj h)
      obtain ⟨front, hfront⟩ := suffix_of_resolveSegments sound haround
      refine ⟨front, ?_⟩
      show front ++ segments = (g.net.pathOf around).segments ++ [segments.getLastD ""]
      rw [← hfront, List.append_assoc]
      congr 1
      have hne : segments ≠ [] := by
        rintro rfl
        simp [Reference.isAmbiguous] at qualified
      rw [List.getLastD_eq_getLast?, List.getLast?_eq_some_getLast hne, Option.getD_some]
      exact (List.dropLast_append_getLast hne).symm
    · obtain ⟨rfl, _⟩ := Prod.mk.inj (Option.some.inj h)
      exact List.suffix_rfl
  · simp [Reference.isAmbiguous] at qualified

/-- A declaration queues at most one relocation: of the node with its bare name, to its path. -/
theorem mem_relocations_trackProvisional {outer : Option NodeId} {id : NodeId}
    {relocation : NodeId × Path}
    (h : relocation ∈ (g.trackProvisional name path outer id).relocations) :
    relocation ∈ g.relocations ∨
      name.isAmbiguous = true ∧ g.net.lookup ⟨name.segments⟩ = some relocation.1 ∧
        relocation.2 = path := by
  unfold trackProvisional at h
  split at h
  · exact .inl h
  · split at h <;> exact .inl h
  · rename_i hqualified
    simp only at h
    split at h
    · exact .inl h
    · split at h
      · exact .inl h
      · rename_i stale hfound
        split at h
        · rcases List.mem_append.mp h with hold | hnew
          · exact .inl hold
          · rw [List.mem_singleton.mp hnew]
            exact .inr ⟨hqualified, hfound, rfl⟩
        · exact .inl h

theorem mem_relocations_opened {kind : Kind} {outer : Option NodeId} {relocation : NodeId × Path}
    (h : relocation ∈ (g.opened kind name path outer).relocations) :
    relocation ∈ g.relocations ∨
      name.isAmbiguous = true ∧
        (g.opened kind name path outer).net.lookup ⟨name.segments⟩ = some relocation.1 ∧
          relocation.2 = path := by
  have hdeclared : (g.opened kind name path outer).relocations =
      ((g.findOrAdd path kind).2.trackProvisional name path outer
        (g.findOrAdd path kind).1).relocations := by
    show (g.declared kind name path outer).relocations = _
    unfold declared
    rw [contain_eq]
  rw [hdeclared] at h
  rw [net_opened, lookup_containedNet]
  rcases mem_relocations_trackProvisional h with hold | hnew
  · rw [(g.sameSetting_findOrAdd path kind).relocations] at hold
    exact .inl hold
  · exact .inr hnew

theorem Queued.enter {kind : Kind} (queued : Queued g) (standing : Standing g)
    (hopen : g.enter kind name = some (path, inner)) : Queued inner := by
  obtain ⟨outer, htarget, rfl⟩ := enter_eq_some hopen
  have entered := g.entered_opened kind name path outer
  have hspec := (declarationTarget_spec standing.sound standing.scope htarget).2
  have hsound : (g.opened kind name path outer).net.Sound :=
    entered.sound standing.sound fun around h => (hspec around h).1
  -- nodes that were there keep their paths
  have hpath : ∀ id, g.net.Live id → (g.opened kind name path outer).net.pathOf id = g.net.pathOf id := by
    intro id hlive
    unfold pathOf
    rw [entered.node?_of_live standing.sound hlive]
  have hlives : ∀ id, g.net.Live id → (g.opened kind name path outer).net.Live id := by
    intro id hlive
    rw [live_iff, entered.node?_of_live standing.sound hlive]
    exact live_iff.mp hlive
  refine ⟨fun b a hab => ?_, fun relocation hmem => ?_⟩
  · rcases entered.relates_iff.mp hab with hold | ⟨hout, rfl, _⟩
    · obtain ⟨ha, hb⟩ := standing.sound.ends _ _ _ hold
      rw [hpath a ha, hpath b hb]
      exact queued.follows b a hold
    · obtain ⟨halive, hchild⟩ := hspec a hout
      rw [hsound.pathOf_of_lookup entered.lookup_path, hpath a halive]
      exact hchild
  · rcases mem_relocations_opened hmem with hold | ⟨hqualified, hfound, hplace⟩
    · obtain ⟨hlive, hshort⟩ := queued.queue relocation hold
      exact ⟨hlives _ hlive, by rwa [hpath _ hlive]⟩
    · refine ⟨hsound.live_of_lookup hfound, ?_⟩
      rw [hsound.pathOf_of_lookup hfound, hplace]
      exact (suffix_of_declarationTarget standing.sound hqualified htarget).length_le

theorem Queued.of_kept (queued : Queued g) (kept : Kept g h) : Queued h := by
  have hpath : ∀ id, h.net.pathOf id = g.net.pathOf id := by
    intro id
    rw [pathOf_eq_content?, pathOf_eq_content?, kept.content id]
  refine ⟨queued.follows.mono (fun a b hab => (kept.containment a b).mp hab)
    (fun a b _ => ⟨hpath a, hpath b⟩), fun relocation hmem => ?_⟩
  rw [kept.relocations] at hmem
  obtain ⟨hlive, hshort⟩ := queued.queue relocation hmem
  rw [live_iff_content?, kept.content, ← live_iff_content?, hpath]
  exact ⟨hlive, hshort⟩

theorem walkLaw_queued : WalkLaw Queued where
  start := fun ignored styles => by
    refine ⟨fun b a hab => ?_, by simp [ruled, Graph.empty]⟩
    cases hab
  setting := fun g scope pass rulesFrozen journal queued => ⟨queued.follows, queued.queue⟩
  step := fun g h standing step queued => by
    cases step with
    | enter hopen => exact queued.enter standing hopen
    | leave => exact ⟨queued.follows, queued.queue⟩
    | inherit superclass => exact queued.of_kept (.inherit g superclass)
    | mix mixin target => exact queued.of_kept (.mix g mixin target)

/-! ## All states of a build -/

/-- No node that waits for its relocation has a container. -/
def Detached (g : Graph) : Prop :=
  ∀ relocation ∈ g.relocations, g.isProvisional relocation.1 = true →
    g.net.container? relocation.1 = none

instance (g : Graph) : Decidable g.Detached :=
  inferInstanceAs (Decidable (∀ relocation ∈ g.relocations, g.isProvisional relocation.1 = true →
    g.net.container? relocation.1 = none))

theorem follows_built (detached : (unfolded ignored styles files).Detached) :
    (built ignored styles files).net.FollowsPaths := by
  obtain ⟨hstanding, hqueued⟩ := walkLaw_queued.unfolded ignored styles files
  rw [built_eq, endPass_eq, if_pos pass_unfolded]
  refine follows_foldl_relocate _ _ ?_ ?_ fun relocation hmem hprov => ?_
  · show (unfolded ignored styles files).closed.net.Sound
    rw [closed_eq]
    exact hstanding.sound
  · show (unfolded ignored styles files).closed.net.FollowsPaths
    rw [closed_eq]
    exact hqueued.follows
  · show Movable (unfolded ignored styles files).closed.net relocation
    have hwaits : (unfolded ignored styles files).isProvisional relocation.1 = true := by
      have hclosed : (unfolded ignored styles files).closed.isProvisional relocation.1 = true := hprov
      rwa [closed_eq] at hclosed
    rw [closed_eq]
    exact ⟨container?_eq_none_iff.mp (detached relocation hmem hwaits), (hqueued.queue _ hmem).2⟩

/-- Containment follows paths in every state before the second pass ends. It does so in all states of a
build if then no node that waits for its relocation has a container. -/
theorem follows_of_detached (ignored : List Matcher) (styles : List (Matcher × Style))
    (files : List (List Item)) :
    (∀ g, Underway ignored styles files g → g.net.FollowsPaths) ∧
      ((unfolded ignored styles files).Detached →
        ∀ g, Observed ignored styles files g → g.net.FollowsPaths) := by
  refine ⟨fun g early => (walkLaw_queued.underway early).follows, fun detached g observed => ?_⟩
  refine observed.law ?_ ?_ walkLaw_queued (fun g queued => queued.follows) (follows_built detached)
  · exact fun net id attributes follows => follows.restyled id attributes
  · exact fun net id sound follows => follows.removeNode sound id

/-- A class `X::Y` with a body in `M`, which stands before `M::X`. -/
def namespaceLast : List (List Item) :=
  [[.moduleDecl (.relative ["M"])
      [.classDecl (.relative ["X", "Y"]) none [.moduleDecl (.relative ["K"]) []]],
    .moduleDecl (.relative ["M"]) [.moduleDecl (.relative ["X"]) []]]]

theorem follows_of_namespaceLast :
    ((unfolded [] [] namespaceLast).Detached ∧ (unfolded [] [] namespaceLast).relocations ≠ []) ∧
      (∀ g, Underway [] [] namespaceLast g → g.net.FollowsPaths) ∧
      ∀ g, Observed [] [] namespaceLast g → g.net.FollowsPaths := by
  have hdetached : (unfolded [] [] namespaceLast).Detached := by decide +kernel
  have hwaiting : (unfolded [] [] namespaceLast).relocations ≠ [] := by decide +kernel
  obtain ⟨hearly, hall⟩ := follows_of_detached [] [] namespaceLast
  exact ⟨⟨hdetached, hwaiting⟩, hearly, hall hdetached⟩

/-- The class `A::B::C` lies in `A::B`. In `M` the name is unknown, since `M::A` hides `A`, so its node
is provisional as well; and `X::N`, where it then belongs, is moved into `K` first. -/
def hiddenName : List (List Item) :=
  [[.moduleDecl (.relative ["K"]) [.classDecl (.relative ["X", "N"]) none []],
    .moduleDecl (.relative ["A"]) [.moduleDecl (.relative ["B"]) []],
    .classDecl (.relative ["X", "N"]) none
      [.classDecl (.relative ["A", "B", "C"]) none [],
        .moduleDecl (.relative ["A"]) [.moduleDecl (.relative ["B"]) []]],
    .moduleDecl (.relative ["M"])
      [.moduleDecl (.relative ["A"]) [], .classDecl (.relative ["A", "B", "C"]) none []],
    .moduleDecl (.relative ["K"]) [.moduleDecl (.relative ["X"]) []]]]

/-- The law can fail: in the end `A::B` contains `X::N::A::B::C`. -/
theorem not_follows_hiddenName :
    ∃ g, Observed [] [] hiddenName g ∧ ∃ outer inner, g.net.Relates outer inner .containment ∧
      g.net.pathOf outer = ⟨["A", "B"]⟩ ∧ g.net.pathOf inner = ⟨["X", "N", "A", "B", "C"]⟩ ∧
      ¬ g.net.FollowsPaths := by
  refine ⟨built [] [] hiddenName, .finished .built, 3, 4, ?_⟩
  have hedge : (built [] [] hiddenName).net.Relates 3 4 .containment :=
    hasEdge_iff.mp (by decide +kernel)
  have houter : (built [] [] hiddenName).net.pathOf 3 = ⟨["A", "B"]⟩ := by decide +kernel
  have hinner : (built [] [] hiddenName).net.pathOf 4 = ⟨["X", "N", "A", "B", "C"]⟩ := by
    decide +kernel
  refine ⟨hedge, houter, hinner, fun follows => ?_⟩
  have hlength := (follows 4).length_eq hedge
  rw [houter, hinner] at hlength
  simp at hlength

end Graph

end ClassAtlas
