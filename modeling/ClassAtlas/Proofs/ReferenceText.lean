import Mathlib.Data.List.Induction
import ClassAtlas.Proofs.PathText
import ClassAtlas.Reference

/-!
# References and their texts

A reference is written like a path, with a mark in front if it is absolute, and `self` has a word of
its own. Reading trims the whole text before it looks for that word or that mark. Blanks around a text
do not change the segments that are read from it (`segmentsOf_trim`), and neither does a mark in front,
so the segments are read back as those of a path are. What is left is whether the reader can tell the
three kinds apart.
-/

namespace ClassAtlas

/-! ## Trimming -/

namespace Text

theorem trim_cons_of_blank {c : Char} (blank : isBlank c = true) (s : List Char) :
    trim (c :: s) = trim s := by
  simp only [trim, trimLeft, List.dropWhile_cons_of_pos blank]

theorem trimRight_concat_of_blank {c : Char} (blank : isBlank c = true) (s : List Char) :
    trimRight (s ++ [c]) = trimRight s := by
  unfold trimRight
  rw [List.reverse_concat, List.dropWhile_cons_of_pos blank]

theorem trimRight_concat_of_not_blank {c : Char} (solid : ¬ isBlank c = true) (s : List Char) :
    trimRight (s ++ [c]) = s ++ [c] := by
  unfold trimRight
  rw [List.reverse_concat, List.dropWhile_cons_of_neg solid, ← List.reverse_concat, List.reverse_reverse]

theorem trimRight_prefix (s : List Char) : trimRight s <+: s := by
  rw [← List.reverse_suffix, trimRight, List.reverse_reverse]
  exact List.dropWhile_suffix isBlank

theorem trim_concat_of_blank {c : Char} (blank : isBlank c = true) (s : List Char) :
    trim (s ++ [c]) = trim s := by
  unfold trim trimLeft
  rw [List.dropWhile_append]
  split
  · -- nothing but blanks
    rename_i hnone
    rw [List.isEmpty_iff.mp hnone, List.dropWhile_cons_of_pos blank]
    rfl
  · exact trimRight_concat_of_blank blank _

/-- What does not begin with a blank keeps its beginning. -/
theorem trimRight_cons_of_not_blank {c : Char} (solid : ¬ isBlank c = true) (s : List Char) :
    trimRight (c :: s) = c :: trimRight s := by
  induction s using List.reverseRecOn with
  | nil => exact trimRight_concat_of_not_blank solid []
  | append_singleton s d ih =>
    rw [← List.cons_append]
    by_cases hd : isBlank d = true
    · rw [trimRight_concat_of_blank hd, trimRight_concat_of_blank hd, ih]
    · rw [trimRight_concat_of_not_blank hd, trimRight_concat_of_not_blank hd, List.cons_append]

theorem trim_cons_of_not_blank {c : Char} (solid : ¬ isBlank c = true) (s : List Char) :
    trim (c :: s) = c :: trimRight s := by
  unfold trim trimLeft
  rw [List.dropWhile_cons_of_neg solid, trimRight_cons_of_not_blank solid]

end Text

/-! ## The segments in a text -/

namespace Path

theorem segmentsOf_eq_kept (text : List Char) :
    segmentsOf text = (kept (pieces text)).map String.ofList := rfl

/-- A mark in front adds an empty piece, which does not count. -/
theorem segmentsOf_mark (text : List Char) : segmentsOf (':' :: ':' :: text) = segmentsOf text := by
  rw [segmentsOf_eq_kept, segmentsOf_eq_kept, pieces]
  rfl

theorem ne_colon_of_blank {c : Char} (blank : Text.isBlank c = true) : c ≠ ':' := by
  rintro rfl
  exact absurd blank (by decide)

theorem segmentsOf_cons_of_blank {c : Char} (blank : Text.isBlank c = true) (text : List Char) :
    segmentsOf (c :: text) = segmentsOf text := by
  have hnot : ¬ (c = ':' ∧ text.head? = some ':') := fun h => ne_colon_of_blank blank h.1
  obtain ⟨piece, others, hpieces, heq⟩ := pieces_cons hnot
  rw [segmentsOf_eq_kept, segmentsOf_eq_kept, hpieces, heq]
  simp only [kept, List.map_cons, Text.trim_cons_of_blank blank]

/-- A character that is no colon goes to the end of the last piece. -/
theorem pieces_concat {c : Char} (other : c ≠ ':') (text : List Char) :
    ∃ front last, pieces text = front ++ [last] ∧ pieces (text ++ [c]) = front ++ [last ++ [c]] := by
  fun_induction pieces text with
  | case1 =>
    refine ⟨[], [], rfl, ?_⟩
    exact pieces_of_unmarked (unmarked_cons.mpr ⟨fun h => other h.1, unmarked_nil⟩)
  | case2 rest ih =>
    obtain ⟨front, last, hpieces, heq⟩ := ih
    refine ⟨[] :: front, last, by rw [hpieces, List.cons_append], ?_⟩
    rw [List.cons_append, List.cons_append, pieces, heq, List.cons_append]
  | case3 first rest _ hnone => exact absurd hnone (pieces_ne_nil rest)
  | case4 first rest hmark piece others hpieces ih =>
    obtain ⟨front, last, hsplit, heq⟩ := ih
    have hnot : ¬ (first = ':' ∧ (rest ++ [c]).head? = some ':') := by
      rintro ⟨hfirst, hhead⟩
      cases rest with
      | nil => exact other (by simpa using hhead)
      | cons second rest =>
        have hsecond : second = ':' := by simpa using hhead
        exact hmark rest hfirst (by rw [hsecond])
    obtain ⟨piece', others', hpieces', hcons⟩ := pieces_cons hnot
    rw [List.cons_append, hcons]
    -- the first piece may be the last one
    cases front with
    | nil =>
      obtain ⟨rfl, rfl⟩ := List.cons.inj (hpieces.symm.trans hsplit)
      obtain ⟨rfl, rfl⟩ := List.cons.inj (hpieces'.symm.trans heq)
      exact ⟨[], first :: piece, rfl, rfl⟩
    | cons head front =>
      obtain ⟨rfl, rfl⟩ := List.cons.inj (hpieces.symm.trans hsplit)
      obtain ⟨rfl, rfl⟩ := List.cons.inj (hpieces'.symm.trans heq)
      exact ⟨_ :: front, last, rfl, rfl⟩

theorem segmentsOf_concat_of_blank {c : Char} (blank : Text.isBlank c = true) (text : List Char) :
    segmentsOf (text ++ [c]) = segmentsOf text := by
  obtain ⟨front, last, hpieces, heq⟩ := pieces_concat (ne_colon_of_blank blank) text
  rw [segmentsOf_eq_kept, segmentsOf_eq_kept, hpieces, heq]
  simp only [kept, List.map_append, List.map_singleton, Text.trim_concat_of_blank blank]

/-- Blanks around a text do not count. -/
theorem segmentsOf_trim (text : List Char) : segmentsOf (Text.trim text) = segmentsOf text := by
  have hleft : segmentsOf (Text.trimLeft text) = segmentsOf text := by
    induction text with
    | nil => rfl
    | cons c text ih =>
      by_cases hc : Text.isBlank c = true
      · rw [Text.trimLeft, List.dropWhile_cons_of_pos hc, segmentsOf_cons_of_blank hc]
        exact ih
      · rw [Text.trimLeft, List.dropWhile_cons_of_neg hc]
  rw [← hleft]
  unfold Text.trim
  generalize Text.trimLeft text = rest
  induction rest using List.reverseRecOn with
  | nil => rfl
  | append_singleton rest c ih =>
    by_cases hc : Text.isBlank c = true
    · rw [Text.trimRight_concat_of_blank hc, segmentsOf_concat_of_blank hc, ih]
    · rw [Text.trimRight_concat_of_not_blank hc]

theorem parse_display_eq_iff_segmentsOf (segments : List String) :
    parse (display ⟨segments⟩) = ⟨segments⟩ ↔
      segmentsOf (display ⟨segments⟩).toList = segments :=
  ⟨fun h => congrArg Path.segments h, fun h => congrArg Path.mk h⟩

/-- The text of a legible path begins with no mark, not even behind blanks. -/
theorem Legible.not_marked {p : Path} (legible : p.Legible) (rest : List Char) :
    Text.trim p.display.toList ≠ ':' :: ':' :: rest := by
  intro htrim
  by_cases hnone : p.segments = []
  · rw [toList_display, hnone] at htrim
    cases htrim
  -- the first piece of the text is the first segment, and would be the empty one before the mark
  have hpieces := pieces_display hnone legible.unmarked legible.unended
  obtain ⟨first, others, hsegments⟩ := List.exists_cons_of_ne_nil hnone
  rw [hsegments, List.map_cons] at hpieces
  have hmem : first ∈ p.segments := hsegments ▸ List.mem_cons_self
  have hfirst : first.toList ≠ [] := by simpa using legible.nonempty first hmem
  obtain ⟨c, chars, hchars⟩ := List.exists_cons_of_ne_nil hfirst
  have hsolid : ¬ Text.isBlank c = true := by
    have hblank := (legible.unpadded first hmem).1
    rw [hchars] at hblank
    simpa using hblank
  have hhead : first.toList.head? = some c := by rw [hchars]; rfl
  obtain ⟨tail, htail⟩ := List.head?_eq_some_iff.mp (head?_of_pieces hpieces hhead)
  rw [htail, Text.trim_cons_of_not_blank hsolid] at htrim
  obtain ⟨rfl, hmark⟩ := List.cons.inj htrim
  obtain ⟨blanks, hblanks⟩ := Text.trimRight_prefix tail
  rw [htail, ← hblanks, hmark, List.cons_append, pieces] at hpieces
  exact hfirst (List.cons.inj hpieces).1.symm

end Path

/-! ## Reading back -/

namespace Reference

theorem parse_eq (text : String) :
    parse text =
      if Text.trim text.toList = "self".toList then .selfRef
      else if [':', ':'] <+: Text.trim text.toList then .absolute (Path.segmentsOf text.toList)
      else .relative (Path.segmentsOf text.toList) := by
  unfold parse
  simp only [Path.segmentsOf_trim, List.isPrefixOf_iff_prefix]
  rfl

theorem toList_display_relative (segments : List String) :
    (display (.relative segments)).toList = (Path.display ⟨segments⟩).toList := rfl

theorem toList_display_absolute (segments : List String) :
    (display (.absolute segments)).toList = ':' :: ':' :: (Path.display ⟨segments⟩).toList := by
  rw [display, String.toList_append]
  rfl

/-- A relative reference is read back if its segments are, unless its text is the word for `self`. -/
theorem parse_display_relative_iff (segments : List String) :
    parse (display (.relative segments)) = .relative segments ↔
      Path.Legible ⟨segments⟩ ∧ segments ≠ ["self"] := by
  rw [parse_eq, toList_display_relative, ← Path.parse_display_iff,
    Path.parse_display_eq_iff_segmentsOf]
  constructor
  · intro h
    split at h
    · cases h
    · rename_i hself
      split at h
      · cases h
      · refine ⟨Reference.relative.inj h, ?_⟩
        rintro rfl
        exact hself rfl
  · rintro ⟨hsegments, hother⟩
    have hself : Text.trim (Path.display ⟨segments⟩).toList ≠ "self".toList := by
      intro htext
      rw [← Path.segmentsOf_trim, htext] at hsegments
      exact hother hsegments.symm
    have hlegible := (Path.parse_display_iff ⟨segments⟩).mp
      ((Path.parse_display_eq_iff_segmentsOf segments).mpr hsegments)
    have hmark : ¬ [':', ':'] <+: Text.trim (Path.display ⟨segments⟩).toList := by
      rintro ⟨rest, hrest⟩
      exact hlegible.not_marked rest hrest.symm
    rw [if_neg hself, if_neg hmark, hsegments]

/-- An absolute reference is read back if its segments are: no other text begins with a mark. -/
theorem parse_display_absolute_iff (segments : List String) :
    parse (display (.absolute segments)) = .absolute segments ↔ Path.Legible ⟨segments⟩ := by
  have htrim : Text.trim (display (.absolute segments)).toList =
      ':' :: ':' :: Text.trimRight (Path.display ⟨segments⟩).toList := by
    rw [toList_display_absolute, Text.trim_cons_of_not_blank (by decide),
      Text.trimRight_cons_of_not_blank (by decide)]
  rw [parse_eq, htrim, if_neg (by simp), if_pos ⟨_, rfl⟩, toList_display_absolute,
    Path.segmentsOf_mark, ← Path.parse_display_iff, Path.parse_display_eq_iff_segmentsOf]
  exact ⟨Reference.absolute.inj, congrArg _⟩

end Reference

/-- **Which names are read back from their texts.** A path is, if and only if no segment of it is empty,
begins or ends with a blank or holds a mark, and none but the last ends in a colon. A reference is, if
and only if it is `self`, or its segments are like that and it is not the relative reference with the
one segment `self`. -/
theorem names_read_back_iff :
    (∀ p : Path, Path.parse p.display = p ↔ p.Legible) ∧
      ∀ r : Reference, Reference.parse r.display = r ↔
        r = .selfRef ∨ (Path.Legible ⟨r.segments⟩ ∧ r ≠ .relative ["self"]) := by
  refine ⟨Path.parse_display_iff, fun r => ?_⟩
  cases r with
  | relative segments =>
    rw [Reference.parse_display_relative_iff]
    simp [Reference.segments]
  | absolute segments =>
    rw [Reference.parse_display_absolute_iff]
    simp [Reference.segments]
  | selfRef => exact iff_of_true rfl (.inl rfl)

/-- The colon at the end of a segment is taken for the beginning of the mark. -/
example : Path.parse (Path.display ⟨["A:", "B"]⟩) = ⟨["A", ":B"]⟩ := by decide

end ClassAtlas
