import ClassAtlas.Text.Blank

/-!
# Paths

A path is the full name of a class or module: the list of its segments, outermost first. In text the
segments are joined by `::`.

Reading is forgiving (blanks around a segment and empty segments are dropped), so not every path is
read back from its text: a segment that is empty, holds `::` or has blanks at an end is lost or
split. Such paths are still values, because segments may be given one by one.

Paths are ordered by their text, character by character. The text is not made for that: the segments
are gone through in place, with a mark before each but the first. Two paths with the same text and
different segments are tied, and every listing breaks ties by a stable sort.
-/

namespace ClassAtlas

/-- The full name of a class or module, outermost segment first. -/
structure Path where
  segments : List String
deriving DecidableEq, Repr, Inhabited

namespace Path

/-- The mark between two segments. -/
def separator : String := "::"

/-- The pieces of a text between its marks. A run of colons is cut from the left, so `A:::B` has the
pieces `A` and `:B`. -/
def pieces : List Char → List (List Char)
  | [] => [[]]
  | ':' :: ':' :: rest => [] :: pieces rest
  | c :: rest =>
    match pieces rest with
    | [] => [[c]]
    | piece :: others => (c :: piece) :: others

/-- The segments written in a text: its pieces, trimmed, without the empty ones. -/
def segmentsOf (text : List Char) : List String :=
  (((pieces text).map Text.trim).filter (fun s => !s.isEmpty)).map String.ofList

/-- The path written in a text. -/
def parse (text : String) : Path :=
  ⟨segmentsOf text.toList⟩

/-- The text of a path: its segments joined by `::`. -/
def display (p : Path) : String :=
  separator.intercalate p.segments

/-- The identifier of a path in a drawing: its segments joined by `_`. -/
def key (p : Path) : String :=
  "_".intercalate p.segments

/-- The last segment, or the empty text if there is none. -/
def name (p : Path) : String :=
  p.segments.getLastD ""

/-- The path of the enclosing name. A path of one segment has none. -/
def parent? (p : Path) : Option Path :=
  match p.segments with
  | [] => none
  | [_] => none
  | segments => some ⟨segments.dropLast⟩

/-- The path extended by one segment, taken as it is. -/
def child (p : Path) (name : String) : Path :=
  ⟨p.segments ++ [name]⟩

/-- The path extended by several segments, taken as they are. -/
def join (p : Path) (tail : List String) : Path :=
  ⟨p.segments ++ tail⟩

/-- The characters of the text of a path, segment by segment: every segment but the first comes after
a mark. -/
def chars (p : Path) : List Char :=
  p.segments.zipIdx.flatMap (fun (segment, place) =>
    (if place = 0 then [] else separator.toList) ++ segment.toList)

/-- Characters are compared up to the first place where they differ; what has ended comes first. -/
def compareChars : List Char → List Char → Ordering
  | [], [] => .eq
  | [], _ :: _ => .lt
  | _ :: _, [] => .gt
  | a :: left, b :: right => if a = b then compareChars left right else compare a b

/-- Paths are compared by the characters of their texts. -/
instance : Ord Path where
  compare p q := compareChars p.chars q.chars

/-- The order of listings, as a test: `p` may stand before `q`. -/
def le (p q : Path) : Bool :=
  (compare p q).isLE

@[simp] theorem segments_child (p : Path) (name : String) :
    (p.child name).segments = p.segments ++ [name] := rfl

@[simp] theorem segments_join (p : Path) (tail : List String) :
    (p.join tail).segments = p.segments ++ tail := rfl

@[simp] theorem name_child (p : Path) (name : String) : (p.child name).name = name := by
  simp [Path.name]

/-! ## Laws of the order -/

theorem flatMap_zipIdx_succ (rest : List String) (place : Nat) :
    (rest.zipIdx (place + 1)).flatMap (fun (segment, place) =>
        (if place = 0 then [] else separator.toList) ++ segment.toList) =
      rest.flatMap (fun segment => separator.toList ++ segment.toList) := by
  induction rest generalizing place with
  | nil => rfl
  | cons segment rest ih => simp [ih (place + 1)]

/-- The characters that are compared are those of the text. -/
theorem chars_eq_toList_display (p : Path) : p.chars = p.display.toList := by
  obtain ⟨segments⟩ := p
  unfold chars display
  rw [String.toList_intercalate]
  cases segments with
  | nil => rfl
  | cons first rest =>
      simp only [List.zipIdx_cons, List.flatMap_cons]
      rw [flatMap_zipIdx_succ]
      induction rest generalizing first with
      | nil => simp
      | cons second rest ih =>
          rw [List.map_cons, List.map_cons, List.intercalate_cons_cons, ← List.map_cons, ← ih second]
          simp

/-- The comparison up to the first difference is the lexicographic one. -/
theorem compareChars_eq (left right : List Char) :
    compareChars left right = compareOfLessAndEq left right := by
  induction left generalizing right with
  | nil => cases right <;> simp [compareChars, compareOfLessAndEq]
  | cons a left ih =>
      cases right with
      | nil => simp [compareChars, compareOfLessAndEq]
      | cons b right =>
          by_cases h : a = b
          · simp [compareChars, compareOfLessAndEq, h, ih]
          · have hcompare : compare a b = compareOfLessAndEq a b := rfl
            simp [compareChars, compareOfLessAndEq, h, hcompare, List.cons_lt_cons_iff]

/-- Paths are ordered as their texts are. -/
theorem compare_eq_compare_display (p q : Path) : compare p q = compare p.display q.display := by
  show compareChars p.chars q.chars = compareOfLessAndEq p.display q.display
  have hlt : (p.display < q.display) = (p.display.toList < q.display.toList) := rfl
  rw [compareChars_eq, chars_eq_toList_display, chars_eq_toList_display]
  simp only [compareOfLessAndEq, hlt, String.toList_inj]

theorem le_iff_display_le {p q : Path} : p.le q = true ↔ p.display ≤ q.display := by
  unfold le
  rw [compare_eq_compare_display]
  exact isLE_compareOfLessAndEq String.le_antisymm String.not_le String.le_total

theorem le_trans {p q r : Path} (h₁ : p.le q = true) (h₂ : q.le r = true) : p.le r = true := by
  rw [le_iff_display_le] at *
  exact String.le_trans h₁ h₂

theorem le_total (p q : Path) : (p.le q || q.le p) = true := by
  rw [Bool.or_eq_true, le_iff_display_le, le_iff_display_le]
  exact String.le_total p.display q.display

end Path

end ClassAtlas
