import ClassAtlas.Network.Resolve
import ClassAtlas.Proofs.Containment

/-!
# The way outwards

A name is looked up on the way from a node to its container, the container of that, and so on
(`Network.Outward`). Nothing bounds this way: it ends where a node has no container, and it does not end
at all if a node lies in itself. In a forest it ends for every node (`exists_outward`), because all nodes
on it are different, so as many steps as there are nodes are enough for the bounded walk to go all of it
(`Outward.scopesFrom_eq`).
-/

namespace ClassAtlas

namespace Network

variable {net : Network} {id outer : NodeId} {ids : List NodeId}

/-- The nodes on the way outwards from a node, itself first, up to one that has no container. -/
inductive Outward (net : Network) : NodeId → List NodeId → Prop
  | outermost {id : NodeId} : (∀ outer, ¬ net.Relates outer id .containment) → Outward net id [id]
  | inside {id outer : NodeId} {ids : List NodeId} : net.Relates outer id .containment →
      Outward net outer ids → Outward net id (id :: ids)

theorem Sound.container?_eq_some (sound : net.Sound) :
    net.container? id = some outer ↔ net.Relates outer id .containment := by
  refine ⟨relates_of_container?, fun h => ?_⟩
  cases hfound : net.container? id with
  | none => exact absurd h (container?_eq_none_iff.mp hfound outer)
  | some other => rw [sound.contained other outer id (relates_of_container? hfound) h]

namespace Outward

/-- There is one way outwards, since there is one container at most. -/
theorem unique (sound : net.Sound) {others : List NodeId} (first : net.Outward id ids)
    (second : net.Outward id others) : ids = others := by
  induction first generalizing others with
  | outermost hnone =>
      cases second with
      | outermost _ => rfl
      | inside hin _ => exact absurd hin (hnone _)
  | inside hin _ ih =>
      cases second with
      | outermost hnone => exact absurd hin (hnone _)
      | inside hother hrest =>
          obtain rfl := sound.contained _ _ _ hin hother
          rw [ih hrest]

/-- Every node on the way holds the node where the way begins. -/
theorem under (outward : net.Outward id ids) : ∀ outer ∈ ids, net.Under outer id := by
  induction outward with
  | outermost _ =>
      intro outer houter
      rw [List.mem_singleton.mp houter]
      exact .refl net _
  | inside hin _ ih =>
      intro outer houter
      rcases List.mem_cons.mp houter with rfl | hrest
      · exact .refl net _
      · exact (ih outer hrest).tail hin

theorem live (outward : net.Outward id ids) (sound : net.Sound) (live : net.Live id) :
    ∀ outer ∈ ids, net.Live outer := by
  induction outward with
  | outermost _ =>
      intro outer houter
      rw [List.mem_singleton.mp houter]
      exact live
  | inside hin _ ih =>
      intro outer houter
      rcases List.mem_cons.mp houter with rfl | hrest
      · exact live
      · exact ih (sound.ends _ _ _ hin).1 outer hrest

/-- In a forest the way meets no node twice. -/
theorem nodup (outward : net.Outward id ids) (forest : net.Acyclic) : ids.Nodup := by
  induction outward with
  | outermost _ => exact List.nodup_singleton _
  | inside hin hrest ih =>
      refine List.nodup_cons.mpr ⟨fun hback => ?_, ih⟩
      exact forest _ _ hin (hrest.under _ hback)

/-- The bounded walk goes all the way if the bound leaves enough steps. -/
theorem enclosing_eq (outward : net.Outward id ids) (sound : net.Sound) (steps : Nat)
    (bound : ids.length ≤ steps + 1) : net.enclosing steps id = ids := by
  induction outward generalizing steps with
  | outermost hnone =>
      cases steps with
      | zero => rfl
      | succ steps =>
          unfold enclosing
          rw [container?_eq_none_iff.mpr hnone]
  | @inside id outer ids hin hrest ih =>
      have hshort : ids.length ≤ steps := Nat.le_of_succ_le_succ bound
      cases steps with
      | zero =>
          -- the rest of a way has its first node at least
          rw [List.length_eq_zero_iff.mp (Nat.le_zero.mp hshort)] at hrest
          cases hrest
      | succ steps =>
          unfold enclosing
          rw [sound.container?_eq_some.mpr hin]
          simp only [ih steps hshort]

theorem scopesFrom_eq (outward : net.Outward id ids) (sound : net.Sound) (forest : net.Acyclic)
    (live : net.Live id) : net.scopesFrom (some id) = ids := by
  refine outward.enclosing_eq sound _ (Nat.le_succ_of_le ?_)
  exact length_le_size (outward.nodup forest) (outward.live sound live)

end Outward

/-- In a forest the way outwards ends. `below` are the nodes that it has met before. -/
theorem exists_outward_above (sound : net.Sound) (forest : net.Acyclic) (steps : Nat) (id : NodeId)
    (below : List NodeId) (live : ∀ inner ∈ id :: below, net.Live inner)
    (distinct : (id :: below).Nodup) (held : ∀ inner ∈ below, net.Under id inner)
    (bound : net.nodes.size ≤ steps + below.length) : ∃ ids, net.Outward id ids := by
  induction steps generalizing id below with
  | zero =>
      have hle := length_le_size distinct live
      rw [List.length_cons] at hle
      omega
  | succ steps ih =>
      by_cases hcontained : ∃ outer, net.Relates outer id .containment
      · obtain ⟨outer, hin⟩ := hcontained
        have hheld : ∀ inner ∈ id :: below, net.Under outer inner := by
          intro inner hinner
          rcases List.mem_cons.mp hinner with rfl | hbelow
          · exact .head hin (.refl net _)
          · exact .head hin (held inner hbelow)
        have hnew : outer ∉ id :: below := by
          intro hback
          rcases List.mem_cons.mp hback with rfl | hbelow
          · exact sound.loopless _ _ hin
          · exact forest outer id hin (held outer hbelow)
        obtain ⟨ids, hids⟩ := ih outer (id :: below)
          (List.forall_mem_cons.mpr ⟨(sound.ends _ _ _ hin).1, live⟩)
          (List.nodup_cons.mpr ⟨hnew, distinct⟩) hheld (by rw [List.length_cons]; omega)
        exact ⟨id :: ids, .inside hin hids⟩
      · exact ⟨[id], .outermost fun outer hin => hcontained ⟨outer, hin⟩⟩

theorem exists_outward (sound : net.Sound) (forest : net.Acyclic) (live : net.Live id) :
    ∃ ids, net.Outward id ids :=
  exists_outward_above sound forest net.nodes.size id [] (by simpa using live) (by simp) (by simp)
    (Nat.le_refl _)

end Network

end ClassAtlas
