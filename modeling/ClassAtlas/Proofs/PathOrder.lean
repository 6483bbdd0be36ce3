import ClassAtlas.Proofs.PathText

/-!
# The order of paths

Paths are compared by the characters of their texts. That orders all paths in a line up to ties, and a
tie is a pair of paths with one text. Where no segment holds a colon, the text can be cut at its marks
into the segments again (`ColonFree.pieces_display`), so such paths are never tied.
-/

namespace ClassAtlas

namespace Path

/-- A path with at least one segment and without a colon in any. -/
def ColonFree (p : Path) : Prop :=
  p.segments ≠ [] ∧ ∀ segment ∈ p.segments, ':' ∉ segment.toList

instance (p : Path) : Decidable p.ColonFree :=
  inferInstanceAs (Decidable (p.segments ≠ [] ∧ ∀ segment ∈ p.segments, ':' ∉ segment.toList))

theorem ColonFree.pieces_display {p : Path} (h : p.ColonFree) :
    pieces p.display.toList = p.segments.map String.toList := by
  obtain ⟨hsome, hfree⟩ := h
  refine Path.pieces_display hsome (fun segment hmem hmark => ?_) (fun segment hmem hend => ?_)
  · exact hfree segment hmem (hmark.subset List.mem_cons_self)
  · exact hfree segment (List.dropLast_sublist _ |>.subset hmem) (List.mem_of_getLast? hend)

/-- Paths without colons are read off their texts. -/
theorem display_inj {p q : Path} (hp : p.ColonFree) (hq : q.ColonFree) (h : p.display = q.display) :
    p = q := by
  obtain ⟨segments⟩ := p
  obtain ⟨others⟩ := q
  have hsame : segments.map String.toList = others.map String.toList := by
    rw [← hp.pieces_display, ← hq.pieces_display, h]
  have hsegments := (List.map_inj_right fun _ _ h => String.toList_inj.mp h).mp hsame
  exact congrArg Path.mk hsegments

/-! ## The order -/

/-- Any two paths can be compared, and the comparison is transitive. -/
instance : Std.TransOrd Path where
  eq_swap := by
    intro p q
    rw [compare_eq_compare_display, compare_eq_compare_display q p]
    exact Std.OrientedCmp.eq_swap
  isLE_trans := by
    intro p q r hpq hqr
    exact le_trans hpq hqr

/-- Paths without colons are tied only with themselves. -/
theorem compare_eq_iff {p q : Path} (hp : p.ColonFree) (hq : q.ColonFree) :
    compare p q = .eq ↔ p = q := by
  rw [compare_eq_compare_display, Std.compare_eq_iff_eq]
  exact ⟨display_inj hp hq, fun h => h ▸ rfl⟩

end Path

end ClassAtlas
