import ClassAtlas.Proofs.Reachable

/-!
# The registry of paths

In every reachable graph the index of paths is exact: a path names a node if and only if that node is
there and has the path. So paths are unique, and the nodes that the open scopes and the edges speak
of are there.

Folding needs more care. It moves nodes while it walks over them, and a node that it has listed could
be gone before its turn. `Visits` gives the nodes that a folding looks up, each with the state in
which that happens; all of them are there at that time.
-/

namespace ClassAtlas

namespace Graph

open Network

variable {g : Graph}

/-! ## The nodes that a folding looks up -/

/-- While `stale` is folded into `path`, starting from `g`, the node `id` is looked up in the state
`now`. A contained node is looked up for its name when its turn comes, and then whatever its own
folding looks up. Last is the node itself, and the one that has the path already. -/
inductive Visits : Graph → NodeId → Path → Graph → NodeId → Prop
  | child {g now : Graph} {stale child : NodeId} {path : Path} {done rest : List NodeId} (fuel : Nat) :
      g.net.targets stale .containment = done ++ child :: rest →
      done.foldlM (foldChild fuel path) g = some now → Visits g stale path now child
  | inner {g now later : Graph} {stale child id : NodeId} {path : Path} {done rest : List NodeId}
      (fuel : Nat) :
      g.net.targets stale .containment = done ++ child :: rest →
      done.foldlM (foldChild fuel path) g = some now →
      Visits now child (path.child (now.net.pathOf child).name) later id →
      Visits g stale path later id
  | stale {g now : Graph} {stale : NodeId} {path : Path} (fuel : Nat) :
      (g.net.targets stale .containment).foldlM (foldChild fuel path) g = some now →
      Visits g stale path now stale
  | target {g now : Graph} {stale target : NodeId} {path : Path} (fuel : Nat) :
      (g.net.targets stale .containment).foldlM (foldChild fuel path) g = some now →
      now.net.lookup path = some target → Visits g stale path now target

/-- When the turn of a contained node comes, it is there. -/
theorem turn_live {now : Graph} {stale child : NodeId} {path : Path} {done rest : List NodeId}
    {fuel : Nat} (sound : g.net.Sound)
    (hall : g.net.targets stale .containment = done ++ child :: rest)
    (h : done.foldlM (foldChild fuel path) g = some now) : now.net.Sound ∧ now.net.Live child := by
  have hbegins : (done ++ child :: rest) <+: g.net.targets stale .containment :=
    ⟨[], by rw [List.append_nil, hall]⟩
  obtain ⟨hturn, hchild⟩ := sound.next_target hbegins
  have half := halfway_of_foldlM sound (folded_of_foldInto fuel) done []
    (hall ▸ List.prefix_append done (child :: rest)) (Halfway.start sound) h
  rw [List.nil_append] at half
  exact ⟨half.sound, (half.sound.ends _ _ _ (half.child_contained sound hchild hturn)).2⟩

/-- When all contained nodes are done, the node itself is still there. -/
theorem last_live {now : Graph} {stale : NodeId} {path : Path} {fuel : Nat} (sound : g.net.Sound)
    (live : g.net.Live stale)
    (h : (g.net.targets stale .containment).foldlM (foldChild fuel path) g = some now) :
    now.net.Sound ∧ now.net.Live stale := by
  have half := halfway_of_foldlM sound (folded_of_foldInto fuel) _ [] List.prefix_rfl
    (Halfway.start sound) h
  exact ⟨half.sound, half.stale_live live⟩

theorem Visits.live {now : Graph} {stale id : NodeId} {path : Path}
    (h : Visits g stale path now id) (sound : g.net.Sound) (live : g.net.Live stale) :
    now.net.Sound ∧ now.net.Live id := by
  -- by induction on the depth at which the node is looked up
  induction h with
  | child fuel hall hdone => exact turn_live sound hall hdone
  | inner fuel hall hdone _ ih =>
      obtain ⟨hsound, hlive⟩ := turn_live sound hall hdone
      exact ih hsound hlive
  | stale fuel hdone => exact last_live sound live hdone
  | target fuel hdone hfound =>
      obtain ⟨hsound, _⟩ := last_live sound live hdone
      exact ⟨hsound, hsound.live_of_lookup hfound⟩

/-- At the end of the second pass, `stale` is about to be folded into `path` in the state `now`. -/
def Relocates (g now : Graph) (stale : NodeId) (path : Path) : Prop :=
  ∃ done rest, g.relocations = done ++ (stale, path) :: rest ∧
    (g.relocated done).isProvisional stale = true ∧ (g.relocated done).net.Live stale ∧
    now = (g.relocated done).foldStart stale path

theorem visit_live (sound : g.net.Sound) {now later : Graph} {stale id : NodeId} {path : Path}
    (relocates : g.Relocates now stale path) (visits : Visits now stale path later id) :
    later.net.Live id := by
  obtain ⟨done, rest, _, _, hlive, rfl⟩ := relocates
  exact (visits.live (sound_relocated sound done) hlive).2

/-- **The registry is exact.** In a reachable graph the index is the inverse of the paths of the
nodes, no two nodes have one path, and the index has as many entries as there are nodes. The nodes of
the open scopes and the ends of all edges are there, and so is every node that is looked up when the
provisional nodes are folded, at the time when it is looked up. -/
theorem index_exact_of_reachable {depth : Nat} (reachable : Reachable depth g) :
    (∀ path id, g.net.lookup path = some id ↔ ∃ node, g.net.node? id = some node ∧ node.path = path) ∧
    (∀ a b first second, g.net.node? a = some first → g.net.node? b = some second →
      first.path = second.path → a = b) ∧
    g.net.index.length = g.nodeCount ∧
    (∀ id ∈ g.scope, ∃ node, g.net.node? id = some node) ∧
    (∀ a b relation, g.net.Relates a b relation →
      (∃ node, g.net.node? a = some node) ∧ ∃ node, g.net.node? b = some node) ∧
    ∀ now stale path, g.Relocates now stale path →
      ∀ later id, Visits now stale path later id → ∃ node, later.net.node? id = some node := by
  have hconsistent := consistent_of_reachable reachable
  have hsound := hconsistent.sound
  refine ⟨hsound.registered, ?_, hsound.length_index, ?_, ?_, ?_⟩
  · intro a b first second ha hb hpath
    refine hsound.eq_of_pathOf_eq (live_iff.mpr ⟨first, ha⟩) (live_iff.mpr ⟨second, hb⟩) ?_
    rw [pathOf_of_node? ha, pathOf_of_node? hb, hpath]
  · exact fun id h => live_iff.mp (hconsistent.scope id h)
  · intro a b relation h
    obtain ⟨ha, hb⟩ := hsound.ends a b relation h
    exact ⟨live_iff.mp ha, live_iff.mp hb⟩
  · intro now stale path hrelocates later id hvisits
    exact live_iff.mp (visit_live hsound hrelocates hvisits)

/-- The state before the last folds, for a class `X::Y` in `M` that stands before `M::X`. -/
def lateNamespace : Graph :=
  let files : List (List Item) :=
    [[.moduleDecl (.relative ["M"]) [.classDecl (.relative ["X", "Y"]) none
        [.moduleDecl (.relative ["K"]) []]],
      .moduleDecl (.relative ["M"]) [.moduleDecl (.relative ["X"]) []]]]
  files.foldl replay ((Graph.empty.runPass .findNodes files).beginPass .findRelations)

theorem index_exact_of_lateNamespace :
    (Reachable 0 lateNamespace ∧ ∃ now, lateNamespace.Relocates now 1 ⟨["M", "X", "Y"]⟩) ∧
      lateNamespace.net.index.length = lateNamespace.nodeCount ∧
      ∀ now stale path, lateNamespace.Relocates now stale path →
        ∀ later id, Visits now stale path later id → ∃ node, later.net.node? id = some node := by
  have hreachable : Reachable 0 lateNamespace :=
    ((Reachable.empty.runPass .findNodes _).beginPass .findRelations).foldl_replay _
  refine ⟨⟨hreachable, _, [], [], ?_, ?_, ?_, rfl⟩, ?_⟩
  · decide +kernel
  · decide +kernel
  · show 1 ∈ _
    decide +kernel
  · obtain ⟨_, _, hlength, _, _, hvisits⟩ := index_exact_of_reachable hreachable
    exact ⟨hlength, hvisits⟩

end Graph

end ClassAtlas
