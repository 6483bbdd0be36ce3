import ClassAtlas.Path

/-!
# Paths and their texts

A path is written by joining its segments, and read by cutting its text at the marks, trimming the
pieces and dropping the empty ones. Cutting undoes joining for pieces in which no mark lies or begins
(`pieces_intercalate`), and all pieces of a text are like that (`unmarked_pieces`, `open_pieces`).

A path is read back from its text if and only if it is legible (`parse_display_iff`). That illegible
paths are never read back is a matter of length. The pieces fill the whole text, so a reading that
gives the segments of the text it was made from has neither trimmed nor dropped anything, and the
segments are the pieces.
-/

namespace ClassAtlas

/-! ## Trimming -/

namespace Text

theorem trim_sublist (s : List Char) : (trim s).Sublist s := by
  have hright : (trimRight (trimLeft s)).Sublist (trimLeft s) := by
    have hreversed := (List.dropWhile_sublist isBlank (l := (trimLeft s).reverse)).reverse
    rwa [List.reverse_reverse] at hreversed
  exact hright.trans (List.dropWhile_sublist isBlank)

/-- Trimming that takes nothing away changes nothing. -/
theorem trim_eq_self_of_length {s : List Char} (h : s.length ≤ (trim s).length) : trim s = s :=
  (trim_sublist s).eq_of_length_le h

theorem dropWhile_eq_self_iff (s : List Char) :
    s.dropWhile isBlank = s ↔ s.head?.any isBlank = false := by
  cases s with
  | nil => simp
  | cons c rest =>
    rw [List.dropWhile_cons]
    by_cases hc : isBlank c = true
    · simp only [hc, if_true, List.head?_cons, Option.any_some]
      refine ⟨fun h => ?_, fun h => absurd h (by simp)⟩
      -- what is left is shorter
      have hlength := (List.dropWhile_sublist isBlank (l := rest)).length_le
      rw [h, List.length_cons] at hlength
      omega
    · simp [hc]

/-- A text is trimmed if no blank stands at either end. -/
theorem trim_eq_self_iff (s : List Char) :
    trim s = s ↔ s.head?.any isBlank = false ∧ s.getLast?.any isBlank = false := by
  rw [← dropWhile_eq_self_iff, ← List.head?_reverse, ← dropWhile_eq_self_iff]
  constructor
  · intro h
    have hleft : trimLeft s = s := by
      refine (List.dropWhile_sublist isBlank).eq_of_length_le ?_
      have hlength : (trim s).length ≤ (trimLeft s).length := by
        simpa [trim, trimRight] using
          (List.dropWhile_sublist isBlank (l := (trimLeft s).reverse)).length_le
      rw [h] at hlength
      exact hlength
    refine ⟨hleft, ?_⟩
    unfold trim trimRight at h
    rw [hleft] at h
    exact List.reverse_eq_iff.mp h
  · intro h
    obtain ⟨hleft, hright⟩ := h
    unfold trim trimRight trimLeft
    rw [hleft, hright, List.reverse_reverse]

end Text

namespace Path

/-! ## Cutting a text at its marks -/

/-- No mark lies in the text. -/
def Unmarked (text : List Char) : Prop :=
  ¬ [':', ':'] <:+: text

instance (text : List Char) : Decidable (Unmarked text) :=
  inferInstanceAs (Decidable (¬ [':', ':'] <:+: text))

/-- A text that does not end in a colon, so that a mark after it begins where it seems to. -/
def Open (text : List Char) : Prop :=
  text.getLast? ≠ some ':'

instance (text : List Char) : Decidable (Open text) :=
  inferInstanceAs (Decidable (text.getLast? ≠ some ':'))

theorem unmarked_nil : Unmarked [] := by
  simp [Unmarked]

theorem unmarked_cons {c : Char} {rest : List Char} :
    Unmarked (c :: rest) ↔ ¬ (c = ':' ∧ rest.head? = some ':') ∧ Unmarked rest := by
  unfold Unmarked
  rw [List.infix_cons_iff, not_or]
  refine and_congr_left fun _ => not_congr ?_
  cases rest with
  | nil => simp
  | cons d rest => simp [eq_comm]

theorem open_cons {c d : Char} {rest : List Char} : Open (c :: d :: rest) ↔ Open (d :: rest) := by
  simp [Open]

theorem pieces_ne_nil (text : List Char) : pieces text ≠ [] := by
  rw [pieces.eq_def]
  split
  · simp
  · simp
  · split <;> simp

/-- A character that begins no mark belongs to the first piece. -/
theorem pieces_cons {c : Char} {rest : List Char} (h : ¬ (c = ':' ∧ rest.head? = some ':')) :
    ∃ piece others, pieces rest = piece :: others ∧ pieces (c :: rest) = (c :: piece) :: others := by
  obtain ⟨piece, others, hpieces⟩ := List.exists_cons_of_ne_nil (pieces_ne_nil rest)
  refine ⟨piece, others, hpieces, ?_⟩
  rw [pieces.eq_def]
  split
  · contradiction
  · rename_i heq
    obtain ⟨rfl, rfl⟩ := List.cons.inj heq
    simp at h
  · rename_i heq
    obtain ⟨rfl, rfl⟩ := List.cons.inj heq
    rw [hpieces]

theorem pieces_of_unmarked {text : List Char} (h : Unmarked text) : pieces text = [text] := by
  induction text with
  | nil => rfl
  | cons c rest ih =>
    obtain ⟨hc, hrest⟩ := unmarked_cons.mp h
    obtain ⟨piece, others, hpieces, heq⟩ := pieces_cons hc
    obtain ⟨rfl, rfl⟩ := List.cons.inj (hpieces.symm.trans (ih hrest))
    exact heq

/-- A piece ends at the first mark, unless it ends in a colon: then the mark begins with that. -/
theorem pieces_append_mark {piece : List Char} (rest : List Char) (unmarked : Unmarked piece)
    (unended : Open piece) : pieces (piece ++ ':' :: ':' :: rest) = piece :: pieces rest := by
  induction piece with
  | nil => rfl
  | cons c tail ih =>
    obtain ⟨hc, htail⟩ := unmarked_cons.mp unmarked
    have hnot : ¬ (c = ':' ∧ (tail ++ ':' :: ':' :: rest).head? = some ':') := by
      cases tail with
      | nil => simpa [Open] using unended
      | cons d tail => simpa using hc
    have hopen : Open tail := by
      cases tail with
      | nil => simp [Open]
      | cons d tail => exact open_cons.mp unended
    obtain ⟨first, others, hpieces, heq⟩ := pieces_cons hnot
    obtain ⟨rfl, rfl⟩ := List.cons.inj (hpieces.symm.trans (ih htail hopen))
    exact heq

/-- What is joined is cut into the same pieces, if no mark lies in them or begins in them. -/
theorem pieces_intercalate (first : List Char) (rest : List (List Char))
    (unmarked : ∀ piece ∈ first :: rest, Unmarked piece)
    (unended : ∀ piece ∈ (first :: rest).dropLast, Open piece) :
    pieces ([':', ':'].intercalate (first :: rest)) = first :: rest := by
  induction rest generalizing first with
  | nil =>
    rw [List.intercalate_singleton]
    exact pieces_of_unmarked (unmarked first List.mem_cons_self)
  | cons second rest ih =>
    have hlater := ih second (fun piece h => unmarked piece (List.mem_cons_of_mem _ h))
      (fun piece h => unended piece (List.mem_cons_of_mem _ h))
    rw [List.intercalate_cons_cons, List.append_assoc]
    show pieces (first ++ ':' :: ':' :: [':', ':'].intercalate (second :: rest)) = _
    rw [pieces_append_mark _ (unmarked first List.mem_cons_self) (unended first List.mem_cons_self),
      hlater]

/-- The pieces of a text fill it. -/
theorem intercalate_pieces (text : List Char) : [':', ':'].intercalate (pieces text) = text := by
  fun_induction pieces text with
  | case1 => rfl
  | case2 rest ih =>
    obtain ⟨piece, others, hpieces⟩ := List.exists_cons_of_ne_nil (pieces_ne_nil rest)
    rw [hpieces, List.intercalate_cons_cons, ← hpieces, ih]
    rfl
  | case3 c rest _ hnone ih => exact absurd hnone (pieces_ne_nil rest)
  | case4 c rest _ piece others hpieces ih =>
    rw [hpieces] at ih
    cases others with
    | nil =>
      rw [List.intercalate_singleton] at ih ⊢
      rw [ih]
    | cons second others =>
      rw [List.intercalate_cons_cons] at ih ⊢
      rw [List.cons_append, List.cons_append, ih]

/-- A piece that is not empty begins as the text does. -/
theorem head?_of_pieces {text piece : List Char} {others : List (List Char)} {c : Char}
    (h : pieces text = piece :: others) (hc : piece.head? = some c) : text.head? = some c := by
  rw [← intercalate_pieces text, h]
  obtain ⟨tail, rfl⟩ := List.head?_eq_some_iff.mp hc
  cases others with
  | nil => simp
  | cons second others => simp [List.intercalate_cons_cons]

/-- No mark lies in a piece. -/
theorem unmarked_pieces (text : List Char) : ∀ piece ∈ pieces text, Unmarked piece := by
  fun_induction pieces text with
  | case1 => simp [unmarked_nil]
  | case2 rest ih =>
    intro piece hpiece
    rcases List.mem_cons.mp hpiece with hfirst | hlater
    · exact hfirst ▸ unmarked_nil
    · exact ih piece hlater
  | case3 c rest _ hnone ih => exact absurd hnone (pieces_ne_nil rest)
  | case4 c rest hmark piece others hpieces ih =>
    rw [hpieces] at ih
    intro other hother
    rcases List.mem_cons.mp hother with hfirst | hlater
    · rw [hfirst, unmarked_cons]
      refine ⟨fun h => ?_, ih piece List.mem_cons_self⟩
      obtain ⟨tail, htail⟩ := List.head?_eq_some_iff.mp (head?_of_pieces hpieces h.2)
      exact hmark tail h.1 htail
    · exact ih other (List.mem_cons_of_mem _ hlater)

/-- No piece but the last ends in a colon, since the mark after it would have begun there. -/
theorem open_pieces (text : List Char) : ∀ piece ∈ (pieces text).dropLast, Open piece := by
  fun_induction pieces text with
  | case1 => simp
  | case2 rest ih =>
    rw [List.dropLast_cons_of_ne_nil (pieces_ne_nil rest)]
    intro piece hpiece
    rcases List.mem_cons.mp hpiece with hfirst | hlater
    · simp [hfirst, Open]
    · exact ih piece hlater
  | case3 c rest _ hnone ih => exact absurd hnone (pieces_ne_nil rest)
  | case4 c rest hmark piece others hpieces ih =>
    cases others with
    | nil => simp
    | cons second others =>
      rw [hpieces] at ih
      rw [List.dropLast_cons_of_ne_nil (List.cons_ne_nil second others)] at ih ⊢
      intro other hother
      rcases List.mem_cons.mp hother with hfirst | hlater
      · rw [hfirst]
        cases piece with
        | nil =>
          -- the mark stands right behind the character
          have htext := intercalate_pieces rest
          rw [hpieces, List.intercalate_cons_cons] at htext
          have hcolon : c ≠ ':' := fun h => hmark _ h htext.symm
          simpa [Open] using hcolon
        | cons d piece => exact open_cons.mpr (ih _ List.mem_cons_self)
      · exact ih other (List.mem_cons_of_mem _ hlater)

/-! ## Reading back -/

/-- The pieces that count: trimmed, without the empty ones. -/
def kept (texts : List (List Char)) : List (List Char) :=
  (texts.map Text.trim).filter (fun s => !s.isEmpty)

/-- The length of texts with a mark after each. -/
def weight : List (List Char) → Nat
  | [] => 0
  | text :: rest => text.length + 2 + weight rest

theorem length_intercalate (first : List Char) (rest : List (List Char)) :
    ([':', ':'].intercalate (first :: rest)).length + 2 = weight (first :: rest) := by
  induction rest generalizing first with
  | nil => simp [weight]
  | cons second rest ih =>
    rw [List.intercalate_cons_cons, List.length_append, List.length_append, Nat.add_assoc, ih second]
    simp [weight]

theorem weight_kept_le (texts : List (List Char)) : weight (kept texts) ≤ weight texts := by
  induction texts with
  | nil => simp [kept]
  | cons text rest ih =>
    have htrim := (Text.trim_sublist text).length_le
    unfold kept at *
    rw [List.map_cons, List.filter_cons]
    split
    · simp only [weight]
      omega
    · simp only [weight]
      omega

/-- If the pieces that count weigh as much as all pieces, nothing was trimmed or dropped. -/
theorem kept_of_weight {texts : List (List Char)} (h : weight texts ≤ weight (kept texts)) :
    ∀ text ∈ texts, Text.trim text = text ∧ text ≠ [] := by
  induction texts with
  | nil => simp
  | cons text rest ih =>
    have htrim := (Text.trim_sublist text).length_le
    have hrest := weight_kept_le rest
    have hweight : weight (text :: rest) = text.length + 2 + weight rest := rfl
    by_cases hempty : Text.trim text = []
    · -- a piece that is dropped is missed, together with its mark
      have hkept : kept (text :: rest) = kept rest := by simp [kept, hempty]
      rw [hkept] at h
      omega
    · have hkept : weight (kept (text :: rest)) =
          (Text.trim text).length + 2 + weight (kept rest) := by
        simp [kept, weight, hempty]
      rw [hkept] at h
      have hself : Text.trim text = text := Text.trim_eq_self_of_length (by omega)
      intro other hother
      rcases List.mem_cons.mp hother with hfirst | hlater
      · rw [hfirst]
        exact ⟨hself, hself ▸ hempty⟩
      · exact ih (by omega) other hlater

theorem kept_eq_self {texts : List (List Char)}
    (h : ∀ text ∈ texts, Text.trim text = text ∧ text ≠ []) : kept texts = texts := by
  unfold kept
  rw [List.map_congr_left (g := id) fun text htext => (h text htext).1, List.map_id,
    List.filter_eq_self]
  intro text htext
  simpa using (h text htext).2

/-- The segments of a path can be told from its text: none is empty, begins or ends with a blank or
holds a mark, and none but the last ends in a colon. -/
structure Legible (p : Path) : Prop where
  nonempty : ∀ segment ∈ p.segments, segment ≠ ""
  unpadded : ∀ segment ∈ p.segments,
    segment.toList.head?.any Text.isBlank = false ∧ segment.toList.getLast?.any Text.isBlank = false
  unmarked : ∀ segment ∈ p.segments, Unmarked segment.toList
  unended : ∀ segment ∈ p.segments.dropLast, Open segment.toList

theorem toList_display (p : Path) :
    p.display.toList = [':', ':'].intercalate (p.segments.map String.toList) := by
  unfold display
  rw [String.toList_intercalate]
  rfl

theorem parse_display_eq_iff (p : Path) :
    parse p.display = p ↔ kept (pieces p.display.toList) = p.segments.map String.toList := by
  have hread : (parse p.display).segments.map String.toList = kept (pieces p.display.toList) := by
    simp [parse, segmentsOf, kept]
  rw [← hread, List.map_inj_right fun _ _ h => String.toList_inj.mp h]
  exact ⟨fun h => congrArg segments h, fun h => congrArg Path.mk h⟩

/-- The text of a path is cut into its segments, if no mark lies in them or begins in them. -/
theorem pieces_display {p : Path} (filled : p.segments ≠ [])
    (unmarked : ∀ segment ∈ p.segments, Unmarked segment.toList)
    (unended : ∀ segment ∈ p.segments.dropLast, Open segment.toList) :
    pieces p.display.toList = p.segments.map String.toList := by
  obtain ⟨first, rest, hsegments⟩ := List.exists_cons_of_ne_nil filled
  rw [toList_display, hsegments, List.map_cons]
  refine pieces_intercalate _ _ ?_ ?_
  · rw [← List.map_cons, ← hsegments]
    exact List.forall_mem_map.mpr unmarked
  · rw [← List.map_cons, ← hsegments, ← List.map_dropLast]
    exact List.forall_mem_map.mpr unended

/-- The segments of a path that is read back are the pieces of its text. -/
theorem pieces_of_parse_display {p : Path} (h : parse p.display = p) (filled : p.segments ≠ []) :
    pieces p.display.toList = p.segments.map String.toList ∧
      ∀ piece ∈ pieces p.display.toList, Text.trim piece = piece ∧ piece ≠ [] := by
  have hkept := (parse_display_eq_iff p).mp h
  -- segments and pieces are joined to the same text, so they have the same weight
  have hweight : weight (pieces p.display.toList) = weight (p.segments.map String.toList) := by
    obtain ⟨first, rest, hsegments⟩ := List.exists_cons_of_ne_nil filled
    obtain ⟨piece, others, hpieces⟩ := List.exists_cons_of_ne_nil (pieces_ne_nil p.display.toList)
    have htext := intercalate_pieces p.display.toList
    rw [hpieces] at htext ⊢
    rw [hsegments, List.map_cons, ← length_intercalate, ← length_intercalate, htext, toList_display,
      hsegments, List.map_cons]
  have hall := kept_of_weight (Nat.le_of_eq (hweight.trans (congrArg weight hkept.symm)))
  exact ⟨(kept_eq_self hall).symm.trans hkept, hall⟩

/-- A path is read back from its text if and only if it is legible. -/
theorem parse_display_iff (p : Path) : parse p.display = p ↔ p.Legible := by
  by_cases hnone : p.segments = []
  · -- the path without segments has the empty text
    obtain ⟨segments⟩ := p
    simp only at hnone
    subst hnone
    exact iff_of_true rfl ⟨by simp, by simp, by simp, by simp⟩
  constructor
  · intro h
    obtain ⟨hpieces, hall⟩ := pieces_of_parse_display h hnone
    have hunmarked := unmarked_pieces p.display.toList
    have hopen := open_pieces p.display.toList
    rw [hpieces] at hall hunmarked hopen
    rw [← List.map_dropLast] at hopen
    refine ⟨fun segment hmem => ?_, fun segment hmem => ?_, List.forall_mem_map.mp hunmarked,
      List.forall_mem_map.mp hopen⟩
    · have hsome := (hall _ (List.mem_map_of_mem hmem)).2
      exact fun hempty => hsome (by simp [hempty])
    · exact (Text.trim_eq_self_iff _).mp (hall _ (List.mem_map_of_mem hmem)).1
  · intro legible
    rw [parse_display_eq_iff, pieces_display hnone legible.unmarked legible.unended]
    refine kept_eq_self (List.forall_mem_map.mpr fun segment hmem => ⟨?_, ?_⟩)
    · exact (Text.trim_eq_self_iff _).mpr (legible.unpadded segment hmem)
    · simpa using legible.nonempty segment hmem

end Path

end ClassAtlas
