import ClassAtlas.Json.Parser
import ClassAtlas.Json.Printer

/-!
# JSON values and their texts

A text is found again in its spelling (`decode_encode`), and the spelling ends at the first quote that
does not belong to it (`scanString_encode`), whatever follows. So a value whose strings and keys are
spelled in this way is read back from what is written for it (`parse?_render`). Numbers are left out:
the end of a number is not marked, and no value that is written here holds one.

Reading is bounded by fuel. Each call of the reader takes a character that no other call takes, so the
length of the written value is fuel enough (`Scans`).
-/

namespace ClassAtlas

namespace Json

/-! ## Spelling -/

theorem code?_control : ∀ n < 0x20,
    code? '0' '0' (Nat.digitChar (n / 16)) (Nat.digitChar (n % 16)) = some n := by
  decide

theorem charOfCode?_toNat (c : Char) : Text.charOfCode? c.toNat = some c := by
  have hvalid : c.toNat.isValidChar := c.valid
  unfold Text.charOfCode?
  rw [dif_pos hvalid]
  rfl

/-- A character is spelled by a short escape, by its number if it is a control, or as it is. -/
theorem escapeChar_cases (c : Char) :
    (∃ e, escapeChar c = ['\\', e] ∧ e ≠ 'u' ∧ shortEscape? e = some c) ∨
    (c.toNat < 0x20 ∧ escapeChar c =
      ['\\', 'u', '0', '0', Nat.digitChar (c.toNat / 16), Nat.digitChar (c.toNat % 16)]) ∨
    (escapeChar c = [c] ∧ c ≠ '"' ∧ c ≠ '\\' ∧ ¬ c.toNat < 0x20) := by
  by_cases hshort : c = '"' ∨ c = '\\' ∨ c = '\x08' ∨ c = '\x0c' ∨ c = '\n' ∨ c = '\r' ∨ c = '\t'
  · refine .inl ?_
    rcases hshort with rfl | rfl | rfl | rfl | rfl | rfl | rfl <;>
      exact ⟨_, rfl, by decide, rfl⟩
  · simp only [not_or] at hshort
    obtain ⟨hquote, hslash, hb, hf, hn, hr, ht⟩ := hshort
    by_cases hcontrol : c.toNat < 0x20
    · refine .inr (.inl ⟨hcontrol, ?_⟩)
      simp [escapeChar, hquote, hslash, hb, hf, hn, hr, ht, hcontrol]
    · refine .inr (.inr ⟨?_, hquote, hslash, hcontrol⟩)
      simp [escapeChar, hquote, hslash, hb, hf, hn, hr, ht, hcontrol]

/-- The number of a control is no half of a pair, so it stands for itself whatever follows. -/
theorem decode_control {n : Nat} {c : Char} {d₁ d₂ d₃ d₄ : Char} (rest : List Char)
    (hcode : code? d₁ d₂ d₃ d₄ = some n) (hchar : Text.charOfCode? n = some c) (hcontrol : n < 0x20) :
    decode ('\\' :: 'u' :: d₁ :: d₂ :: d₃ :: d₄ :: rest) = (decode rest).map (c :: ·) := by
  have hwhole : isLeading n = false := by
    have hlow : ¬ 0xD800 ≤ n := by omega
    simp [isLeading, hlow]
  rw [decode.eq_def]
  split
  · contradiction
  · -- another number follows
    rename_i heq
    simp only [List.cons.injEq, true_and] at heq
    obtain ⟨rfl, rfl, rfl, rfl, rfl⟩ := heq
    simp [hcode, hwhole, hchar]
  · rename_i heq
    simp only [List.cons.injEq, true_and] at heq
    obtain ⟨rfl, rfl, rfl, rfl, rfl⟩ := heq
    simp [hcode, hchar]
  · rename_i hnone heq
    simp only [List.cons.injEq, true_and] at heq
    obtain ⟨rfl, rfl⟩ := heq
    exact absurd rfl (hnone _ _ _ _ _ rfl)
  · rename_i hnone heq
    obtain ⟨rfl, rfl⟩ := List.cons.inj heq
    exact absurd rfl (hnone _ _ rfl)

/-- The spelling of a character is read as that character. -/
theorem decode_escapeChar (c : Char) (rest : List Char) :
    decode (escapeChar c ++ rest) = (decode rest).map (c :: ·) := by
  rcases escapeChar_cases c with ⟨e, heq, hcode, hshort⟩ | ⟨hcontrol, heq⟩ | ⟨heq, hquote, hslash, hlow⟩
  · rw [heq, List.cons_append, List.cons_append, decode.eq_def]
    simp [hcode, hshort]
  · rw [heq]
    exact decode_control rest (code?_control c.toNat hcontrol) (charOfCode?_toNat c) hcontrol
  · rw [heq, List.singleton_append, decode.eq_def]
    simp [hquote, hslash, hlow]

theorem decode_encode (text : List Char) : decode (encode text) = some text := by
  induction text with
  | nil => rfl
  | cons c rest ih =>
    show decode (escapeChar c ++ encode rest) = _
    rw [decode_escapeChar, ih]
    rfl

/-! ## The end of a string -/

/-- The spelling of a character is taken over as it is. -/
theorem scanString_escapeChar (c : Char) (rest : List Char) :
    scanString (escapeChar c ++ rest) =
      (scanString rest).map (fun (body, after) => (escapeChar c ++ body, after)) := by
  rcases escapeChar_cases c with ⟨e, heq, hcode, hshort⟩ | ⟨hcontrol, heq⟩ | ⟨heq, hquote, hslash, hlow⟩
  · rw [heq, List.cons_append, List.cons_append, scanString.eq_def]
    simp [hcode, hshort]
  · have hcode := code?_control c.toNat hcontrol
    rw [heq, List.cons_append, List.cons_append, scanString.eq_def]
    simp [isCode, hcode]
  · rw [heq, List.singleton_append, scanString.eq_def]
    simp [hslash, hlow]

/-- The spelling of a text ends at the quote behind it. -/
theorem scanString_encode (text rest : List Char) :
    scanString (encode text ++ '"' :: rest) = some (encode text, rest) := by
  induction text with
  | nil => rfl
  | cons c text ih =>
    show scanString (escapeChar c ++ encode text ++ '"' :: rest) =
      some (escapeChar c ++ encode text, rest)
    rw [List.append_assoc, scanString_escapeChar, ih]
    rfl

/-! ## Blanks -/

theorem skip_append {blanks : List Char} (h : ∀ c ∈ blanks, isSpace c = true) (rest : List Char) :
    skip (blanks ++ rest) = skip rest :=
  List.dropWhile_append_of_pos h

theorem skip_cons {c : Char} (h : isSpace c = false) (rest : List Char) :
    skip (c :: rest) = c :: rest := by
  simp [skip, h]

/-- The blanks at the start of a line. -/
def lineStart (level : Nat) : List Char :=
  '\n' :: indentation level

theorem isSpace_of_mem_lineStart {level : Nat} : ∀ c ∈ lineStart level, isSpace c = true := by
  intro c hc
  rcases List.mem_cons.mp hc with rfl | hblank
  · rfl
  · rw [List.eq_of_mem_replicate hblank]
    rfl

@[simp] theorem skip_lineStart (level : Nat) (rest : List Char) :
    skip (lineStart level ++ rest) = skip rest :=
  skip_append isSpace_of_mem_lineStart rest

theorem scanValue_skip (fuel : Nat) {blanks : List Char} (h : ∀ c ∈ blanks, isSpace c = true)
    (rest : List Char) : scanValue fuel (blanks ++ rest) = scanValue fuel rest := by
  cases fuel with
  | zero => rfl
  | succ fuel => simp only [scanValue, skip_append h]

theorem scanElements_skip (fuel : Nat) {blanks : List Char} (h : ∀ c ∈ blanks, isSpace c = true)
    (rest : List Char) : scanElements fuel (blanks ++ rest) = scanElements fuel rest := by
  cases fuel with
  | zero => rfl
  | succ fuel => simp only [scanElements, scanValue_skip fuel h]

theorem scanMembers_skip (fuel : Nat) {blanks : List Char} (h : ∀ c ∈ blanks, isSpace c = true)
    (rest : List Char) : scanMembers fuel (blanks ++ rest) = scanMembers fuel rest := by
  cases fuel with
  | zero => rfl
  | succ fuel => simp only [scanMembers, skip_append h]

/-! ## Reading what is written -/

/-- A value without numbers whose strings and keys are spelled as texts are. -/
inductive Spelled : Json → Prop
  | null : Spelled .null
  | bool (value : Bool) : Spelled (.bool value)
  | string (text : List Char) : Spelled (.string (encode text))
  | array {elements : List Json} : (∀ element ∈ elements, Spelled element) → Spelled (.array elements)
  | object {members : List (List Char × Json)} : (∀ member ∈ members, ∃ text, member.1 = encode text) →
      (∀ member ∈ members, Spelled member.2) → Spelled (.object members)

/-- A member with its key, in front of the others or of the end of the object. -/
def keyed (key : List Char) (value : List Char) : List Char :=
  '"' :: (key ++ '"' :: ':' :: ' ' :: value)

section Written

variable (level : Nat) (key : List Char) (first : Json) (after : List Char)

theorem pretty_array (others : List Json) :
    pretty level (.array (first :: others)) ++ after =
      '[' :: (lineStart (level + 1) ++ (pretty (level + 1) first ++
        (prettyElements (level + 1) others ++ (lineStart level ++ ']' :: after)))) := by
  show "[\n".toList ++ indentation (level + 1) ++ pretty (level + 1) first ++
    prettyElements (level + 1) others ++ ['\n'] ++ indentation level ++ [']'] ++ after = _
  simp [lineStart]

theorem prettyElements_cons (others : List Json) :
    prettyElements level (first :: others) ++ after =
      ',' :: (lineStart level ++ (pretty level first ++ (prettyElements level others ++ after))) := by
  show ",\n".toList ++ indentation level ++ pretty level first ++ prettyElements level others ++
    after = _
  simp [lineStart]

theorem pretty_object (others : List (List Char × Json)) :
    pretty level (.object ((key, first) :: others)) ++ after =
      '\x7b' :: (lineStart (level + 1) ++ keyed key (pretty (level + 1) first ++
        (prettyMembers (level + 1) others ++ (lineStart level ++ '\x7d' :: after)))) := by
  show ['\x7b', '\n'] ++ indentation (level + 1) ++ ('"' :: key ++ "\": ".toList) ++
    pretty (level + 1) first ++ prettyMembers (level + 1) others ++ ['\n'] ++ indentation level ++
    ['\x7d'] ++ after = _
  simp [lineStart, keyed]

theorem prettyMembers_cons (others : List (List Char × Json)) :
    prettyMembers level ((key, first) :: others) ++ after =
      ',' :: (lineStart level ++
        keyed key (pretty level first ++ (prettyMembers level others ++ after))) := by
  show ",\n".toList ++ indentation level ++ ('"' :: key ++ "\": ".toList) ++ pretty level first ++
    prettyMembers level others ++ after = _
  simp [lineStart, keyed]

end Written

/-- With as much fuel as it is long, the written value is read back, whatever follows it. -/
def Scans (value : Json) : Prop :=
  ∀ level fuel rest, (pretty level value).length ≤ fuel →
    scanValue fuel (pretty level value ++ rest) = some (value, rest)

/-- A value starts with a character of its own: no blank, and no end of an array. -/
theorem pretty_head {value : Json} (spelled : Spelled value) (level : Nat) :
    ∃ c tail, pretty level value = c :: tail ∧ isSpace c = false ∧ c ≠ ']' := by
  cases spelled with
  | null => exact ⟨_, _, rfl, rfl, by decide⟩
  | bool value => cases value <;> exact ⟨_, _, rfl, rfl, by decide⟩
  | string text => exact ⟨_, _, rfl, rfl, by decide⟩
  | @array elements _ => cases elements <;> exact ⟨_, _, rfl, rfl, by decide⟩
  | @object members _ _ => cases members <;> exact ⟨_, _, rfl, rfl, by decide⟩

/-- An element before the end of the array. -/
theorem scanElements_last {level fuel : Nat} {value : Json} {rest after : List Char}
    (scans : Scans value) (enough : (pretty level value).length ≤ fuel)
    (ends : skip rest = ']' :: after) :
    scanElements (fuel + 1) (pretty level value ++ rest) = some ([value], after) := by
  simp only [scanElements, scans level fuel rest enough, ends]

/-- An element before another one. -/
theorem scanElements_next {level fuel : Nat} {value : Json} {others : List Json}
    {rest more after : List Char} (scans : Scans value)
    (enough : (pretty level value).length ≤ fuel) (goesOn : skip rest = ',' :: more)
    (scanned : scanElements fuel more = some (others, after)) :
    scanElements (fuel + 1) (pretty level value ++ rest) = some (value :: others, after) := by
  simp only [scanElements, scans level fuel rest enough, goesOn, scanned, Option.map_some]

/-- The elements of an array are read up to its end. -/
theorem scanElements_pretty (level outer : Nat) {first : Json} {others : List Json}
    (scans : ∀ element ∈ first :: others, Scans element) (fuel : Nat) (rest : List Char)
    (enough : (pretty level first).length + (prettyElements level others).length ≤ fuel) :
    scanElements (fuel + 1) (pretty level first ++ (prettyElements level others ++
      (lineStart outer ++ ']' :: rest))) = some (first :: others, rest) := by
  induction others generalizing first fuel with
  | nil =>
    refine scanElements_last (scans first List.mem_cons_self) (by omega) ?_
    show skip (lineStart outer ++ ']' :: rest) = _
    rw [skip_lineStart, skip_cons rfl]
  | cons second others ih =>
    have hlength := congrArg List.length (prettyElements_cons level second [] others)
    simp only [List.length_cons, List.length_append, List.length_nil] at hlength
    obtain ⟨fuel, rfl⟩ : ∃ less, fuel = less + 1 := ⟨fuel - 1, by omega⟩
    have hothers := ih (fun element h => scans element (List.mem_cons_of_mem _ h)) fuel (by omega)
    refine scanElements_next (scans first List.mem_cons_self) (by omega)
      (by rw [prettyElements_cons, skip_cons rfl]) ?_
    rw [scanElements_skip _ isSpace_of_mem_lineStart, hothers]

section Member

variable {level fuel : Nat} {key : List Char} {value : Json} {rest after : List Char}
  (spelled : ∃ text, key = encode text) (scans : Scans value)
  (enough : (pretty level value).length ≤ fuel)

include spelled scans enough

theorem scan_member (rest : List Char) :
    scanString (key ++ '"' :: ':' :: ' ' :: (pretty level value ++ rest)) =
        some (key, ':' :: ' ' :: (pretty level value ++ rest)) ∧
      scanValue fuel (' ' :: (pretty level value ++ rest)) = some (value, rest) := by
  obtain ⟨text, rfl⟩ := spelled
  have hblank : ∀ c ∈ [' '], isSpace c = true := by simp [isSpace]
  exact ⟨scanString_encode text _,
    (scanValue_skip fuel hblank _).trans (scans level fuel rest enough)⟩

/-- A member before the end of the object. -/
theorem scanMembers_last (ends : skip rest = '\x7d' :: after) :
    scanMembers (fuel + 1) (keyed key (pretty level value ++ rest)) =
      some ([(key, value)], after) := by
  obtain ⟨hkey, hvalue⟩ := scan_member spelled scans enough rest
  simp only [keyed, scanMembers, skip_cons (c := '"') rfl, hkey, skip_cons (c := ':') rfl, hvalue,
    ends]

/-- A member before another one. -/
theorem scanMembers_next {others : List (List Char × Json)} {more : List Char}
    (goesOn : skip rest = ',' :: more) (scanned : scanMembers fuel more = some (others, after)) :
    scanMembers (fuel + 1) (keyed key (pretty level value ++ rest)) =
      some ((key, value) :: others, after) := by
  obtain ⟨hkey, hvalue⟩ := scan_member spelled scans enough rest
  simp only [keyed, scanMembers, skip_cons (c := '"') rfl, hkey, skip_cons (c := ':') rfl, hvalue,
    goesOn, scanned, Option.map_some]

end Member

/-- The members of an object are read up to its end. -/
theorem scanMembers_pretty (level outer : Nat) {key : List Char} {first : Json}
    {others : List (List Char × Json)}
    (spelled : ∀ member ∈ (key, first) :: others, ∃ text, member.1 = encode text)
    (scans : ∀ member ∈ (key, first) :: others, Scans member.2) (fuel : Nat) (rest : List Char)
    (enough : (pretty level first).length + (prettyMembers level others).length ≤ fuel) :
    scanMembers (fuel + 1) (keyed key (pretty level first ++ (prettyMembers level others ++
      (lineStart outer ++ '\x7d' :: rest)))) = some ((key, first) :: others, rest) := by
  have hkey : ∃ text, key = encode text := spelled _ List.mem_cons_self
  have hfirst : Scans first := scans _ List.mem_cons_self
  induction others generalizing key first fuel with
  | nil =>
    refine scanMembers_last hkey hfirst (by omega) ?_
    show skip (lineStart outer ++ '\x7d' :: rest) = _
    rw [skip_lineStart, skip_cons rfl]
  | cons second others ih =>
    obtain ⟨key', second⟩ := second
    have hlength := congrArg List.length (prettyMembers_cons level key' second [] others)
    simp only [keyed, List.length_cons, List.length_append, List.length_nil] at hlength
    obtain ⟨fuel, rfl⟩ : ∃ less, fuel = less + 1 := ⟨fuel - 1, by omega⟩
    have hlater : (key', second) ∈ (key, first) :: (key', second) :: others :=
      List.mem_cons_of_mem _ List.mem_cons_self
    have hothers := ih (fun member h => spelled member (List.mem_cons_of_mem _ h))
      (fun member h => scans member (List.mem_cons_of_mem _ h)) fuel (by omega)
      (spelled _ hlater) (scans _ hlater)
    refine scanMembers_next hkey hfirst (by omega)
      (by rw [prettyMembers_cons, skip_cons rfl]) ?_
    rw [scanMembers_skip _ isSpace_of_mem_lineStart, hothers]

theorem scans_of_step {value : Json} (spelled : Spelled value)
    (step : ∀ level fuel rest, (pretty level value).length ≤ fuel + 1 →
      scanValue (fuel + 1) (pretty level value ++ rest) = some (value, rest)) : Scans value := by
  intro level fuel rest enough
  obtain ⟨c, tail, hhead, _⟩ := pretty_head spelled level
  have hpos := congrArg List.length hhead
  rw [List.length_cons] at hpos
  obtain ⟨fuel, rfl⟩ : ∃ less, fuel = less + 1 := ⟨fuel - 1, by omega⟩
  exact step level fuel rest enough

theorem scans_array {first : Json} {others : List Json}
    (spelled : ∀ element ∈ first :: others, Spelled element)
    (scans : ∀ element ∈ first :: others, Scans element) : Scans (.array (first :: others)) := by
  refine scans_of_step (.array spelled) fun level fuel rest enough => ?_
  have hlength := congrArg List.length (pretty_array level first [] others)
  simp only [List.length_cons, List.length_append, List.length_nil] at hlength
  obtain ⟨fuel, rfl⟩ : ∃ less, fuel = less + 1 := ⟨fuel - 1, by omega⟩
  have helements := scanElements_pretty (level + 1) level scans fuel rest (by omega)
  obtain ⟨c, tail, hhead, hblank, hend⟩ :=
    pretty_head (spelled first List.mem_cons_self) (level + 1)
  rw [pretty_array]
  rw [hhead, List.cons_append] at helements ⊢
  simp only [scanValue, skip_cons (c := '[') rfl, skip_lineStart, skip_cons hblank]
  split
  · rename_i heq
    exact absurd (List.cons.inj heq).1 hend
  · rw [helements]
    rfl

theorem scans_object {key : List Char} {first : Json} {others : List (List Char × Json)}
    (keys : ∀ member ∈ (key, first) :: others, ∃ text, member.1 = encode text)
    (spelled : ∀ member ∈ (key, first) :: others, Spelled member.2)
    (scans : ∀ member ∈ (key, first) :: others, Scans member.2) :
    Scans (.object ((key, first) :: others)) := by
  refine scans_of_step (.object keys spelled) fun level fuel rest enough => ?_
  have hlength := congrArg List.length (pretty_object level key first [] others)
  simp only [keyed, List.length_cons, List.length_append, List.length_nil] at hlength
  obtain ⟨fuel, rfl⟩ : ∃ less, fuel = less + 1 := ⟨fuel - 1, by omega⟩
  have hmembers := scanMembers_pretty (level + 1) level keys scans fuel rest (by omega)
  rw [pretty_object]
  simp only [scanValue, skip_cons (c := '\x7b') rfl, skip_lineStart]
  rw [show skip (keyed key _) = keyed key _ from skip_cons rfl _]
  show Option.map _ (scanMembers (fuel + 1) (keyed key _)) = _
  rw [hmembers]
  rfl

/-- A well-spelled value is read back from what is written for it. -/
theorem Spelled.scans {value : Json} (spelled : Spelled value) : Scans value := by
  induction spelled with
  | null => exact scans_of_step .null fun _ _ _ _ => rfl
  | bool value => cases value <;> exact scans_of_step (.bool _) fun _ _ _ _ => rfl
  | string text =>
    refine scans_of_step (.string text) fun level fuel rest _ => ?_
    show scanValue (fuel + 1) ('"' :: encode text ++ ['"'] ++ rest) = _
    simp only [scanValue, List.cons_append, List.append_assoc, List.nil_append,
      skip_cons (c := '"') rfl, scanString_encode]
    rfl
  | @array elements spelled ih =>
    cases elements with
    | nil => exact scans_of_step (.array spelled) fun _ _ _ _ => rfl
    | cons first others => exact scans_array spelled ih
  | @object members keys spelled ih =>
    cases members with
    | nil => exact scans_of_step (.object keys spelled) fun _ _ _ _ => rfl
    | cons first others => exact scans_object keys spelled ih

/-- A well-spelled value is read back from its text. -/
theorem parse?_render {value : Json} (spelled : Spelled value) : parse? (render value) = some value := by
  have hscan := spelled.scans 0 (2 * (pretty 0 value).length + 2) [] (by omega)
  rw [List.append_nil] at hscan
  simp [parse?, render, hscan, skip]

end Json

end ClassAtlas
