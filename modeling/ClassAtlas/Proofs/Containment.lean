import Mathlib.Data.List.Perm.Subperm
import ClassAtlas.Proofs.MergeLaws

/-!
# Containment as a forest

What lies in a node, at any depth (`Network.Under`), and what it takes to change one part of the
containment without touching the rest (`Network.Frame`): if a set of nodes is closed under contained
nodes, and only nodes of that set are moved or given another container, then the ancestry of every
other node is what it was. Containment is a forest if no node lies in itself (`Network.Acyclic`);
one new containment keeps that unless it closes a circle.
-/

namespace ClassAtlas

namespace Network

/-- `inner` is `outer` or lies in it, at any depth. -/
def Under (net : Network) (outer inner : NodeId) : Prop :=
  Relation.ReflTransGen (fun a b => net.Relates a b .containment) outer inner

/-- No node lies in a node that it contains. -/
def Acyclic (net : Network) : Prop :=
  ∀ a b, net.Relates a b .containment → ¬ net.Under b a

variable {net before between after : Network}

theorem Under.refl (net : Network) (id : NodeId) : net.Under id id :=
  Relation.ReflTransGen.refl

theorem Under.trans {a b c : NodeId} (h₁ : net.Under a b) (h₂ : net.Under b c) : net.Under a c :=
  Relation.ReflTransGen.trans h₁ h₂

theorem Under.tail {a b c : NodeId} (h₁ : net.Under a b) (h₂ : net.Relates b c .containment) :
    net.Under a c :=
  Relation.ReflTransGen.tail h₁ h₂

theorem Under.head {a b c : NodeId} (h₁ : net.Relates a b .containment) (h₂ : net.Under b c) :
    net.Under a c :=
  Relation.ReflTransGen.head h₁ h₂

/-- What lies in a node is the node itself or lies in one that it contains. -/
theorem under_iff_head {a c : NodeId} :
    net.Under a c ↔ a = c ∨ ∃ b, net.Relates a b .containment ∧ net.Under b c := by
  constructor
  · intro h
    rcases Relation.ReflTransGen.cases_head h with heq | ⟨b, hab, hbc⟩
    · exact .inl heq
    · exact .inr ⟨b, hab, hbc⟩
  · rintro (rfl | ⟨b, hab, hbc⟩)
    · exact .refl net a
    · exact .head hab hbc

theorem Under.mono (edges : ∀ a b, after.Relates a b .containment → before.Relates a b .containment)
    {a b : NodeId} (h : after.Under a b) : before.Under a b :=
  Relation.ReflTransGen.mono edges _ _ h

/-- Different nodes are no more than all nodes. -/
theorem length_le_size {ids : List NodeId} (distinct : ids.Nodup) (live : ∀ id ∈ ids, net.Live id) :
    ids.length ≤ net.nodes.size := by
  rw [Arena.size_eq_length_ids]
  exact (List.subperm_of_subset distinct live).length_le

/-- The only way into a contained node leads through its container. -/
theorem Sound.under_container (sound : net.Sound) {a outer inner : NodeId}
    (h : net.Under a inner) (hne : a ≠ inner) (hin : net.Relates outer inner .containment) :
    net.Under a outer := by
  rcases Relation.ReflTransGen.cases_tail h with heq | ⟨last, hlast, hstep⟩
  · exact absurd heq.symm hne
  · rw [sound.contained outer last inner hin hstep]
    exact hlast

/-! ## Frames -/

/-- Only nodes in `moved` have changed; and what lies in a moved node is moved. No node is new. -/
structure Frame (before after : Network) (moved : NodeId → Prop) : Prop where
  closed : ∀ a b, before.Relates a b .containment → moved a → moved b
  content : ∀ id, ¬ moved id → after.content? id = before.content? id
  container : ∀ b, ¬ moved b → ∀ a,
    after.Relates a b .containment ↔ before.Relates a b .containment
  live : ∀ id, after.Live id → before.Live id

namespace Frame

variable {moved : NodeId → Prop}

theorem refl (closed : ∀ a b, net.Relates a b .containment → moved a → moved b) :
    Frame net net moved :=
  ⟨closed, fun _ _ => rfl, fun _ _ _ => Iff.rfl, fun _ h => h⟩

/-- The moved nodes are closed after the change as well. -/
theorem closed_after (frame : Frame before after moved) :
    ∀ a b, after.Relates a b .containment → moved a → moved b := by
  intro a b hab ha
  by_contra hb
  exact hb (frame.closed a b ((frame.container b hb a).mp hab) ha)

theorem trans (first : Frame before between moved) (second : Frame between after moved) :
    Frame before after moved where
  closed := first.closed
  content id h := (second.content id h).trans (first.content id h)
  container b h a := (second.container b h a).trans (first.container b h a)
  live id h := first.live id (second.live id h)

theorem mono {more : NodeId → Prop} (frame : Frame before after moved)
    (closed : ∀ a b, before.Relates a b .containment → more a → more b)
    (sub : ∀ id, moved id → more id) : Frame before after more where
  closed := closed
  content id h := frame.content id (fun hm => h (sub id hm))
  container b h := frame.container b (fun hm => h (sub b hm))
  live := frame.live

theorem pathOf (frame : Frame before after moved) {id : NodeId} (h : ¬ moved id) :
    after.pathOf id = before.pathOf id := by
  rw [pathOf_eq_content?, pathOf_eq_content?, frame.content id h]

theorem live_iff (frame : Frame before after moved) {id : NodeId} (h : ¬ moved id) :
    after.Live id ↔ before.Live id := by
  rw [live_iff_content?, live_iff_content?, frame.content id h]

/-- The ancestry of a node that is not moved stays. -/
theorem under_iff (frame : Frame before after moved) {a b : NodeId} (hb : ¬ moved b) :
    after.Under a b ↔ before.Under a b := by
  constructor
  · intro h
    induction h with
    | refl => exact .refl before a
    | @tail mid last _ hstep ih =>
        have hmid : ¬ moved mid := fun hm => hb (frame.closed_after mid last hstep hm)
        exact (ih hmid).tail ((frame.container last hb mid).mp hstep)
  · intro h
    induction h with
    | refl => exact .refl after a
    | @tail mid last _ hstep ih =>
        have hmid : ¬ moved mid := fun hm => hb (frame.closed mid last hstep hm)
        exact (ih hmid).tail ((frame.container last hb mid).mpr hstep)

theorem size_le (frame : Frame before after moved) (sound : after.Sound) :
    after.nodes.size ≤ before.nodes.size := by
  rw [Arena.size_eq_length_ids]
  exact length_le_size sound.nodes.ids_nodup fun id h => frame.live id h

end Frame

/-! ## Forests -/

theorem Acyclic.mono (acyclic : before.Acyclic)
    (edges : ∀ a b, after.Relates a b .containment → before.Relates a b .containment) :
    after.Acyclic :=
  fun a b hab hba => acyclic a b (edges a b hab) (hba.mono edges)

/-- A way that may use one more containment uses it not at all, or goes through it. -/
theorem under_of_new_edge {outer inner : NodeId}
    (edges : ∀ a b, after.Relates a b .containment →
      before.Relates a b .containment ∨ (a = outer ∧ b = inner))
    {a b : NodeId} (h : after.Under a b) :
    before.Under a b ∨ (before.Under a outer ∧ before.Under inner b) := by
  induction h with
  | refl => exact .inl (.refl before a)
  | @tail mid last _ hstep ih =>
      rcases edges mid last hstep with hold | ⟨rfl, rfl⟩
      · rcases ih with h | ⟨h₁, h₂⟩
        · exact .inl (h.tail hold)
        · exact .inr ⟨h₁, h₂.tail hold⟩
      · rcases ih with h | ⟨h₁, _⟩
        · exact .inr ⟨h, .refl before _⟩
        · exact .inr ⟨h₁, .refl before _⟩

/-- One more containment keeps the forest if its inner end does not hold its outer end. -/
theorem Acyclic.of_new_edge {outer inner : NodeId} (acyclic : before.Acyclic)
    (edges : ∀ a b, after.Relates a b .containment →
      before.Relates a b .containment ∨ (a = outer ∧ b = inner))
    (apart : ¬ before.Under inner outer) : after.Acyclic := by
  intro a b hab hba
  rcases under_of_new_edge edges hba with hold | ⟨hup, hdown⟩
  · rcases edges a b hab with h | ⟨rfl, rfl⟩
    · exact acyclic a b h hold
    · exact apart hold
  · rcases edges a b hab with h | ⟨rfl, rfl⟩
    · exact apart ((hdown.tail h).trans hup)
    · exact apart hup

end Network

end ClassAtlas
