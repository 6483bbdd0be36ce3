import ClassAtlas.Proofs.Outline
import Mathlib.Data.List.Lex

/-!
# The first error

Which error of a tree is reported, if it has any.

The search for the first error looks only into children that have one. A tree has an error exactly if
there is a fault at some place in it (`hasError_iff`), so there is nothing to find in the children that
are passed over. The search therefore finds what a scan of all nodes in document order finds, and it
finds something in every tree that is refused (`first_fault_reported`).
-/

namespace ClassAtlas

namespace SyntaxTree

variable {tree found : SyntaxTree} {place : List Nat}

/-! ## Faults and their places -/

/-- The node at a place is a fault, and no node before it in the document is one. -/
structure FirstFault (tree : SyntaxTree) (place : List Nat) (found : SyntaxTree) : Prop where
  here : tree.nodeAt? place = some found
  fault : found.isFault = true
  first : ∀ earlier node, earlier < place → tree.nodeAt? earlier = some node → node.isFault = false

theorem FirstFault.not_lt {earlier : List Nat} {node : SyntaxTree}
    (first : FirstFault tree place found) (hnode : tree.nodeAt? earlier = some node)
    (hfault : node.isFault = true) : ¬ earlier < place := by
  intro hlt
  have hsound := first.first earlier node hlt hnode
  rw [hfault] at hsound
  cases hsound

/-- There is only one first fault, since of two neither comes before the other. -/
theorem FirstFault.unique {place' : List Nat} {found' : SyntaxTree}
    (first : FirstFault tree place found) (first' : FirstFault tree place' found') :
    found = found' := by
  obtain hlt | rfl | hlt := lt_trichotomy place place'
  · exact absurd hlt (first'.not_lt first.here first.fault)
  · exact Option.some.inj (first.here.symm.trans first'.here)
  · exact absurd hlt (first.not_lt first'.here first'.fault)

theorem anyHasError_eq (trees : List SyntaxTree) : anyHasError trees = trees.any hasError := by
  induction trees with
  | nil => rfl
  | cons child rest ih => rw [anyHasError, ih, List.any_cons]

theorem hasError_eq (tree : SyntaxTree) :
    tree.hasError = (tree.isFault || tree.children.any hasError) := by
  rw [← anyHasError_eq]
  cases tree
  rfl

/-- A tree has an error if and only if there is a fault at some place in it. -/
theorem hasError_iff :
    tree.hasError = true ↔ ∃ place node, tree.nodeAt? place = some node ∧ node.isFault = true := by
  induction tree using induct with
  | node tree ih =>
    rw [hasError_eq, Bool.or_eq_true, List.any_eq_true]
    constructor
    · rintro (hfault | ⟨child, hchild, hwrong⟩)
      · exact ⟨[], tree, rfl, hfault⟩
      · obtain ⟨index, hindex⟩ := List.mem_iff_getElem?.mp hchild
        obtain ⟨rest, node, hnode, hfault⟩ := (ih child hchild).mp hwrong
        exact ⟨index :: rest, node, nodeAt?_cons_eq_some_iff.mpr ⟨child, hindex, hnode⟩, hfault⟩
    · rintro ⟨place, node, hnode, hfault⟩
      cases place with
      | nil =>
        cases hnode
        exact .inl hfault
      | cons index rest =>
        obtain ⟨child, hindex, hnode⟩ := nodeAt?_cons_eq_some_iff.mp hnode
        have hchild := List.mem_of_getElem? hindex
        exact .inr ⟨child, hchild, (ih child hchild).mpr ⟨rest, node, hnode, hfault⟩⟩

theorem isFault_eq_false {node : SyntaxTree} (hright : tree.hasError = false)
    (hnode : tree.nodeAt? place = some node) : node.isFault = false := by
  cases hfault : node.isFault with
  | false => rfl
  | true =>
    rw [hasError_iff.mpr ⟨place, node, hnode, hfault⟩] at hright
    cases hright

/-! ## The search -/

theorem firstErrorIn_eq (trees : List SyntaxTree) :
    firstErrorIn trees = (trees.filter hasError).findSome? firstError? := by
  induction trees with
  | nil => rfl
  | cons child rest ih =>
    cases hwrong : child.hasError with
    | false => simp [firstErrorIn, hwrong, ih]
    | true => cases hsearch : child.firstError? <;> simp [firstErrorIn, hwrong, hsearch, ih]

theorem firstError?_of_fault (h : tree.isFault = true) : tree.firstError? = some tree := by
  cases tree
  exact if_pos h

theorem firstError?_of_sound (h : tree.isFault = false) :
    tree.firstError? = (tree.children.filter hasError).findSome? firstError? := by
  rw [← firstErrorIn_eq]
  cases tree
  exact if_neg (Bool.eq_false_iff.mp h)

/-- The search comes back with nothing only from a tree that has no error. -/
theorem firstError?_eq_none_iff : tree.firstError? = none ↔ tree.hasError = false := by
  induction tree using induct with
  | node tree ih =>
    rw [hasError_eq]
    cases hfault : tree.isFault with
    | true => simp [firstError?_of_fault hfault]
    | false =>
      rw [firstError?_of_sound hfault, List.findSome?_eq_none_iff, Bool.false_or, List.any_eq_false]
      constructor
      · intro hnone child hchild hwrong
        have hright := (ih child hchild).mp (hnone child (List.mem_filter.mpr ⟨hchild, hwrong⟩))
        rw [hwrong] at hright
        cases hright
      · intro hright child hkept
        obtain ⟨hchild, hwrong⟩ := List.mem_filter.mp hkept
        exact absurd hwrong (hright child hchild)

/-- Nothing is lost by passing over the children that have no error. -/
theorem findSome?_filter_hasError (trees : List SyntaxTree) :
    (trees.filter hasError).findSome? firstError? = trees.findSome? firstError? := by
  induction trees with
  | nil => rfl
  | cons child rest ih =>
    cases hwrong : child.hasError with
    | false => simp [hwrong, firstError?_eq_none_iff.mpr hwrong, ih]
    | true => simp [hwrong, List.findSome?_cons, ih]

theorem exists_firstFault (h : tree.firstError? = some found) :
    ∃ place, FirstFault tree place found := by
  induction tree using induct with
  | node tree ih =>
    cases hfault : tree.isFault with
    | true =>
      rw [firstError?_of_fault hfault] at h
      cases h
      exact ⟨[], rfl, hfault, fun earlier _ hlt => absurd hlt (List.not_lt_nil earlier)⟩
    | false =>
      rw [firstError?_of_sound hfault, findSome?_filter_hasError, List.findSome?_eq_some_iff] at h
      obtain ⟨passed, child, later, hparts, hsearch, hnone⟩ := h
      have hchild : tree.children[passed.length]? = some child := by
        simp [hparts]
      obtain ⟨rest, hinner⟩ := ih child (List.mem_of_getElem? hchild) hsearch
      refine ⟨passed.length :: rest, nodeAt?_cons_eq_some_iff.mpr ⟨child, hchild, hinner.here⟩,
        hinner.fault, ?_⟩
      -- What comes before is the node itself, or is below an earlier child, or comes before the first
      -- fault of this child.
      intro earlier node hlt hnode
      cases hlt with
      | nil =>
        cases hnode
        exact hfault
      | rel hindex =>
        obtain ⟨other, hother, hnode⟩ := nodeAt?_cons_eq_some_iff.mp hnode
        rw [hparts, List.getElem?_append_left hindex] at hother
        have hright := firstError?_eq_none_iff.mp (hnone other (List.mem_of_getElem? hother))
        exact isFault_eq_false hright hnode
      | cons hrest =>
        obtain ⟨other, hother, hnode⟩ := nodeAt?_cons_eq_some_iff.mp hnode
        obtain rfl : child = other := by simpa [hchild] using hother
        exact hinner.first _ node hrest hnode

theorem firstError?_eq_some_iff :
    tree.firstError? = some found ↔ ∃ place, FirstFault tree place found := by
  constructor
  · exact exists_firstFault
  · rintro ⟨place, hfirst⟩
    cases hsearch : tree.firstError? with
    | none =>
      have hsound := isFault_eq_false (firstError?_eq_none_iff.mp hsearch) hfirst.here
      rw [hfirst.fault] at hsound
      cases hsound
    | some other =>
      obtain ⟨place', hother⟩ := exists_firstFault hsearch
      rw [hother.unique hfirst]

/-! ## Scanning all nodes -/

theorem firstError?_eq_find? (tree : SyntaxTree) :
    tree.firstError? = tree.preorder.find? isFault := by
  induction tree using induct with
  | node tree ih =>
    rw [preorder_eq]
    cases hfault : tree.isFault with
    | true => rw [firstError?_of_fault hfault, List.find?_cons_of_pos hfault]
    | false =>
      rw [firstError?_of_sound hfault, findSome?_filter_hasError,
        List.find?_cons_of_neg (Bool.eq_false_iff.mp hfault), List.find?_flatMap,
        ← List.head?_filterMap, ← List.head?_filterMap, List.filterMap_congr ih]

/-! ## Refused files -/

theorem items_eq_error_iff {source : ByteArray} {error : SyntaxError} :
    tree.items source = .error error ↔
      ∃ found, tree.firstError? = some found ∧ error = .atByte source found.start := by
  unfold items
  cases hsearch : tree.firstError? with
  | none => simp [firstError?_eq_none_iff.mp hsearch]
  | some found =>
    have hwrong : tree.hasError = true := by
      rw [← Bool.not_eq_false, ← firstError?_eq_none_iff, hsearch]
      exact Option.some_ne_none found
    simp [hwrong, eq_comm]

/-- The search for an error, which passes over children without one, finds the first fault among all
nodes, in document order, and nothing only if the tree has no error. A file is refused for no other
reason than a fault in its tree, and the place that is reported is always that of the first. -/
theorem first_fault_reported (source : ByteArray) (tree : SyntaxTree) :
    tree.firstError? = tree.preorder.find? isFault ∧
    (∀ found, tree.firstError? = some found ↔ ∃ place, FirstFault tree place found) ∧
    (tree.firstError? = none ↔ tree.hasError = false) ∧
    (∀ error, tree.items source = .error error ↔
      ∃ found, tree.firstError? = some found ∧ error = .atByte source found.start) :=
  ⟨firstError?_eq_find? tree, fun _ => firstError?_eq_some_iff, firstError?_eq_none_iff,
    fun _ => items_eq_error_iff⟩

-- A missing token inside a class comes before an error that is less deep but stands later.
example :
    let gap := node "end" false false true none 8 8 []
    (node "program" true false false none 0 12 [
      node "class" true false false none 0 8 [
        node "constant" true false false (some "name") 6 7 [], gap],
      node "ERROR" true true false none 9 12 []]).firstError? = some gap :=
  rfl

end SyntaxTree

end ClassAtlas
