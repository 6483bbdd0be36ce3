import ClassAtlas.Proofs.Containment
import ClassAtlas.Proofs.Operations

/-!
# Names in nested declarations

What a reference denotes can be said without nodes and edges, by the paths that are known: the first
name of a relative reference is looked for in the path where it stands, then in the one around it, and
so on to the top level, and the other names follow it step by step (`Denotes`).

The network looks names up by walking over its containment. In a network where containment is exactly
the nesting of paths (`Network.Layered`) both come to the same (`Layered.resolve_iff`). The link is
`Network.Scopes`: the chain of nodes from a path outwards is the list of scopes that the search goes
through.
-/

namespace ClassAtlas

namespace Path

theorem child_ne_root (path : Path) (name : String) : path.child name ≠ ⟨[]⟩ := by
  intro h
  have hsegments := congrArg Path.segments h
  simp at hsegments

theorem child_inj {p q : Path} {a b : String} (h : p.child a = q.child b) : p = q ∧ a = b := by
  have hsegments := congrArg Path.segments h
  simp only [segments_child] at hsegments
  obtain ⟨hpath, hname⟩ := List.append_inj' hsegments rfl
  exact ⟨congrArg Path.mk hpath, List.singleton_inj.mp hname⟩

theorem join_nil (path : Path) : path.join [] = path :=
  congrArg Path.mk (List.append_nil _)

theorem join_cons (path : Path) (name : String) (tail : List String) :
    path.join (name :: tail) = (path.child name).join tail := by
  simp [join, child]

/-- What begins a path is the path itself or begins the enclosing one. -/
theorem prefix_child_iff {part outer : Path} {name : String} :
    part.segments <+: (outer.child name).segments ↔
      part = outer.child name ∨ part.segments <+: outer.segments := by
  rw [segments_child, List.prefix_concat_iff]
  refine or_congr_left ⟨fun h => congrArg Path.mk h, fun h => ?_⟩
  rw [h, segments_child]

end Path

/-! ## What a reference denotes -/

/-- `scope` is the nearest path around `origin`, itself included, in which the name is known. -/
def Nearest (known : Path → Prop) (origin : Path) (name : String) (scope : Path) : Prop :=
  scope.segments <+: origin.segments ∧ known (scope.child name) ∧
    ∀ nearer : Path, nearer.segments <+: origin.segments →
      scope.segments.length < nearer.segments.length → ¬ known (nearer.child name)

/-- The reference, standing in the body of `origin`, means `path`. Its first name is taken from the
nearest scope that has it, and every further name has to be known right inside the one before. -/
def Denotes (known : Path → Prop) (origin : Path) (reference : Reference) (path : Path) : Prop :=
  match reference with
  | .selfRef => False
  | .absolute segments => path = ⟨segments⟩ ∧ known path
  | .relative [] => False
  | .relative (first :: rest) =>
    ∃ scope, Nearest known origin first scope ∧
      (∀ count ≤ rest.length, known (scope.join (first :: rest.take count))) ∧
      path = scope.join (first :: rest)

theorem Denotes.known {known : Path → Prop} {origin path : Path} {reference : Reference}
    (h : Denotes known origin reference path) : known path := by
  match reference, h with
  | .absolute segments, h => exact h.2
  | .relative (first :: rest), ⟨scope, _, hsteps, hpath⟩ =>
      have hlast := hsteps rest.length (Nat.le_refl _)
      rw [List.take_length] at hlast
      rw [hpath]
      exact hlast

namespace Network

variable {net other : Network}

/-! ## Containment as nesting -/

/-- Containment is the nesting of paths: every path has its enclosing one, and a node lies in another
if and only if its path is that of the other and one more name. -/
structure Layered (net : Network) : Prop where
  sound : net.Sound
  rooted : ¬ net.Known ⟨[]⟩
  enclosed : ∀ outer name, net.Known (outer.child name) → outer ≠ ⟨[]⟩ → net.Known outer
  follows : ∀ a b, net.Relates a b .containment → ∃ name, net.pathOf b = (net.pathOf a).child name
  contained : ∀ outer name a b, net.lookup outer = some a → net.lookup (outer.child name) = some b →
    net.Relates a b .containment

theorem layered_empty : Layered {} := by
  refine ⟨sound_empty, ?_, ?_, ?_, ?_⟩
  · rintro ⟨id, h⟩
    cases h
  · rintro outer name ⟨id, h⟩
    cases h
  · intro a b h
    cases h
  · intro outer name a b h
    cases h

/-- The nodes of a path and of the paths around it, innermost first. -/
inductive Scopes (net : Network) : List NodeId → Path → Prop
  | top : Scopes net [] ⟨[]⟩
  | inner {ids : List NodeId} {outer : Path} {id : NodeId} {name : String} :
      Scopes net ids outer → net.lookup (outer.child name) = some id →
      Scopes net (id :: ids) (outer.child name)

namespace Scopes

variable {ids : List NodeId} {path : Path} {id : NodeId}

theorem mono (scopes : Scopes net ids path)
    (h : ∀ path id, net.lookup path = some id → other.lookup path = some id) :
    Scopes other ids path := by
  induction scopes with
  | top => exact .top
  | inner _ hid ih => exact .inner ih (h _ _ hid)

theorem live (scopes : Scopes net ids path) (sound : net.Sound) : ∀ id ∈ ids, net.Live id := by
  induction scopes with
  | top => simp
  | inner _ hid ih =>
      intro id hmem
      rcases List.mem_cons.mp hmem with rfl | h
      · exact sound.live_of_lookup hid
      · exact ih id h

theorem known (scopes : Scopes net ids path) (inside : path ≠ ⟨[]⟩) : net.Known path := by
  cases scopes with
  | top => exact absurd rfl inside
  | inner _ hid => exact ⟨_, hid⟩

/-- The scopes in a body are its own node and the scopes around it. -/
theorem child {outer : Path} {name : String} (scopes : Scopes net ids (outer.child name)) :
    ∃ id rest, ids = id :: rest ∧ net.lookup (outer.child name) = some id ∧ Scopes net rest outer := by
  generalize hpath : outer.child name = path at scopes
  cases scopes with
  | top => exact absurd hpath (Path.child_ne_root outer name)
  | inner houter hid =>
      obtain ⟨rfl, rfl⟩ := Path.child_inj hpath
      exact ⟨_, _, rfl, hid, houter⟩

theorem head?_eq_lookup (scopes : Scopes net ids path) (layered : Layered net) :
    ids.head? = net.lookup path := by
  cases scopes with
  | top =>
      cases h : net.lookup ⟨[]⟩ with
      | none => rfl
      | some id => exact absurd ⟨id, h⟩ layered.rooted
  | inner _ hid => exact hid.symm

/-- Scopes get longer paths inwards, so no node is there twice. -/
theorem nodup (scopes : Scopes net ids path) (sound : net.Sound) :
    ids.Nodup ∧ ∀ id ∈ ids, (net.pathOf id).segments.length ≤ path.segments.length := by
  induction scopes with
  | top => simp
  | @inner ids outer id name _ hid ih =>
      obtain ⟨hnodup, hlength⟩ := ih
      have hpath := sound.pathOf_of_lookup hid
      have hlonger : (outer.child name).segments.length = outer.segments.length + 1 := by simp
      refine ⟨List.nodup_cons.mpr ⟨fun hmem => ?_, hnodup⟩, fun other hother => ?_⟩
      · have hle := hlength id hmem
        rw [hpath] at hle
        omega
      · rcases List.mem_cons.mp hother with rfl | h
        · exact Nat.le_of_eq (by rw [hpath])
        · have hle := hlength other h
          omega

/-- The container of the innermost scope is the next one. -/
theorem container?_eq (scopes : Scopes net (id :: ids) path) (layered : Layered net) :
    net.container? id = ids.head? := by
  cases scopes with
  | @inner _ outer _ name houter hid =>
      have hpath := layered.sound.pathOf_of_lookup hid
      cases hfound : net.container? id with
      | none =>
          rw [houter.head?_eq_lookup layered]
          cases hlookup : net.lookup outer with
          | none => rfl
          | some around =>
              have hrelates := layered.contained outer name around id hlookup hid
              exact absurd hrelates (container?_eq_none_iff.mp hfound around)
      | some around =>
          have hrelates := relates_of_container? hfound
          obtain ⟨last, hchild⟩ := layered.follows around id hrelates
          rw [hpath] at hchild
          obtain ⟨hsame, _⟩ := Path.child_inj hchild
          rw [houter.head?_eq_lookup layered, hsame]
          exact (layered.sound.lookup_pathOf (layered.sound.ends _ _ _ hrelates).1).symm

/-- The walk outwards from a path goes through its scopes. -/
theorem enclosing_eq (scopes : Scopes net (id :: ids) path) (layered : Layered net) (steps : Nat)
    (bound : ids.length ≤ steps) : net.enclosing steps id = id :: ids := by
  induction steps generalizing id ids path with
  | zero =>
      rw [List.length_eq_zero_iff.mp (Nat.le_zero.mp bound)]
      rfl
  | succ steps ih =>
      unfold enclosing
      rw [scopes.container?_eq layered]
      cases scopes with
      | inner houter _ =>
          cases ids with
          | nil => rfl
          | cons around rest =>
              simp only [List.head?_cons]
              rw [ih houter (Nat.le_of_succ_le_succ bound)]

theorem scopesFrom_eq (scopes : Scopes net ids path) (layered : Layered net) :
    net.scopesFrom ids.head? = ids := by
  cases ids with
  | nil => rfl
  | cons id rest =>
      refine scopes.enclosing_eq layered _ ?_
      have hle := length_le_size (scopes.nodup layered.sound).1 (scopes.live layered.sound)
      rw [List.length_cons] at hle
      omega

end Scopes

/-! ## Resolution -/

namespace Scopes

variable {ids : List NodeId} {path : Path} {id : NodeId}

/-- The first hit among the scopes, or else at the top level, is the nearest one. -/
theorem search_iff (scopes : Scopes net ids path) (sound : net.Sound) (name : String) :
    ((ids.findSome? fun scope => net.lookup ((net.pathOf scope).child name)).or
        (net.lookup ⟨[name]⟩)) = some id ↔
      ∃ scope, Nearest net.Known path name scope ∧ net.lookup (scope.child name) = some id := by
  induction scopes with
  | top =>
      -- only the top level is left
      rw [List.findSome?_nil, Option.none_or]
      constructor
      · intro h
        refine ⟨⟨[]⟩, ⟨List.prefix_rfl, ⟨id, h⟩, fun nearer hbegins hlonger => ?_⟩, h⟩
        have hle := hbegins.length_le
        omega
      · rintro ⟨scope, ⟨hbegins, _⟩, h⟩
        have hscope : scope = ⟨[]⟩ := by
          cases scope
          simpa using hbegins
        rw [hscope] at h
        exact h
  | @inner rest outer here last _ hhere ih =>
      rw [List.findSome?_cons, sound.pathOf_of_lookup hhere]
      have hlonger : ∀ part : Path, part.segments <+: outer.segments →
          part.segments.length < (outer.child last).segments.length := by
        intro part hpart
        have hle := hpart.length_le
        rw [Path.segments_child, List.length_append, List.length_singleton]
        omega
      cases hfound : net.lookup ((outer.child last).child name) with
      | some hit =>
          -- the name is known right here, and no other scope is as near
          rw [Option.some_or]
          constructor
          · intro h
            refine ⟨outer.child last, ⟨List.prefix_rfl, ⟨hit, hfound⟩, fun nearer hbegins hmore => ?_⟩,
              hfound.trans h⟩
            have hle := hbegins.length_le
            omega
          · rintro ⟨scope, ⟨hbegins, _, hnone⟩, h⟩
            rcases Path.prefix_child_iff.mp hbegins with rfl | hout
            · rw [hfound] at h
              exact h
            · exact absurd ⟨hit, hfound⟩ (hnone (outer.child last) List.prefix_rfl (hlonger scope hout))
      | none =>
          -- the name is not known here, so the search goes on outside
          have hhole : ¬ net.Known ((outer.child last).child name) := by
            rintro ⟨hit, h⟩
            rw [hfound] at h
            cases h
          simp only
          rw [ih]
          constructor
          · rintro ⟨scope, ⟨hbegins, hknown, hnone⟩, h⟩
            refine ⟨scope, ⟨Path.prefix_child_iff.mpr (.inr hbegins), hknown, ?_⟩, h⟩
            intro nearer hnear hmore
            rcases Path.prefix_child_iff.mp hnear with rfl | hout
            · exact hhole
            · exact hnone nearer hout hmore
          · rintro ⟨scope, ⟨hbegins, hknown, hnone⟩, h⟩
            rcases Path.prefix_child_iff.mp hbegins with rfl | hout
            · exact absurd hknown hhole
            · refine ⟨scope, ⟨hout, hknown, fun nearer hnear hmore => ?_⟩, h⟩
              exact hnone nearer (Path.prefix_child_iff.mpr (.inr hnear)) hmore

theorem resolveName_iff (scopes : Scopes net ids path) (layered : Layered net) (name : String) :
    net.resolveName name ids.head? = some id ↔
      ∃ scope, Nearest net.Known path name scope ∧ net.lookup (scope.child name) = some id := by
  rw [← scopes.search_iff layered.sound name]
  unfold resolveName
  rw [scopes.scopesFrom_eq layered]
  cases ids.findSome? fun scope => net.lookup ((net.pathOf scope).child name) <;> rfl

end Scopes

/-- Going down name by name finds a node if every path on the way is known. -/
theorem Sound.descend_iff (sound : net.Sound) {base id : NodeId} {path : Path} {rest : List String}
    (hbase : net.lookup path = some base) :
    net.descend base rest = some id ↔
      (∀ count ≤ rest.length, net.Known (path.join (rest.take count))) ∧
        net.lookup (path.join rest) = some id := by
  induction rest generalizing base path with
  | nil =>
      simp only [descend_nil, List.take_nil, Path.join_nil, hbase]
      exact ⟨fun h => ⟨fun _ _ => ⟨base, hbase⟩, h⟩, fun h => h.2⟩
  | cons name rest ih =>
      unfold descend
      rw [sound.pathOf_of_lookup hbase, Path.join_cons]
      cases hinner : net.lookup (path.child name) with
      | none =>
          constructor
          · intro h
            cases h
          · rintro ⟨hknown, _⟩
            obtain ⟨inner, h⟩ := hknown 1 (by simp)
            rw [List.take_succ_cons, List.take_zero, Path.join_cons, Path.join_nil, hinner] at h
            cases h
      | some inner =>
          simp only
          rw [ih hinner]
          constructor
          · rintro ⟨hknown, h⟩
            refine ⟨fun count hcount => ?_, h⟩
            cases count with
            | zero =>
                rw [List.take_zero, Path.join_nil]
                exact ⟨base, hbase⟩
            | succ count =>
                rw [List.take_succ_cons, Path.join_cons]
                exact hknown count (Nat.le_of_succ_le_succ hcount)
          · rintro ⟨hknown, h⟩
            refine ⟨fun count hcount => ?_, h⟩
            have hnext := hknown (count + 1) (Nat.succ_le_succ hcount)
            rw [List.take_succ_cons, Path.join_cons] at hnext
            exact hnext

/-- Resolution finds exactly what a reference denotes. -/
theorem Layered.resolve_iff (layered : Layered net) {ids : List NodeId} {path : Path} {id : NodeId}
    (scopes : Scopes net ids path) (reference : Reference) :
    net.resolve reference ids.head? = some id ↔
      ∃ target, Denotes net.Known path reference target ∧ net.lookup target = some id := by
  match reference with
  | .selfRef => simp [resolve, Denotes]
  | .absolute segments =>
      rw [resolve_absolute]
      constructor
      · exact fun h => ⟨⟨segments⟩, ⟨rfl, ⟨id, h⟩⟩, h⟩
      · rintro ⟨target, ⟨rfl, _⟩, h⟩
        exact h
  | .relative [] => simp [resolve, resolveSegments, Denotes]
  | .relative (first :: rest) =>
      rw [resolve_relative_cons]
      constructor
      · intro h
        cases hbase : net.resolveName first ids.head? with
        | none =>
            rw [hbase] at h
            cases h
        | some base =>
            rw [hbase] at h
            obtain ⟨scope, hnearest, hfound⟩ := (scopes.resolveName_iff layered first).mp hbase
            obtain ⟨hknown, htarget⟩ := (layered.sound.descend_iff hfound).mp h
            refine ⟨(scope.child first).join rest,
              ⟨scope, hnearest, ?_, (scope.join_cons first rest).symm⟩, htarget⟩
            intro count hcount
            rw [Path.join_cons]
            exact hknown count hcount
      · rintro ⟨target, ⟨scope, hnearest, hknown, rfl⟩, htarget⟩
        obtain ⟨base, hfound⟩ := hnearest.2.1
        rw [(scopes.resolveName_iff layered first).mpr ⟨scope, hnearest, hfound⟩]
        rw [Path.join_cons] at htarget
        refine (layered.sound.descend_iff hfound).mpr ⟨fun count hcount => ?_, htarget⟩
        rw [← Path.join_cons]
        exact hknown count hcount

end Network

end ClassAtlas
