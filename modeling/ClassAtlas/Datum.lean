/-!
# Data

A value as a settings file gives it: nothing, a truth value, a number, a text, a list, or a table of
values by name. Readers of settings work on these values and do not ask which format they came from.
-/

namespace ClassAtlas

/-- A value of a settings file. -/
inductive Datum where
  | null
  | bool (value : Bool)
  /-- A number as written; no setting is a number. -/
  | number (written : String)
  | text (value : String)
  | list (elements : List Datum)
  | table (entries : List (String × Datum))
deriving Inhabited

namespace Datum

/-- The text of a text. -/
def text? : Datum → Option String
  | .text value => some value
  | _ => none

/-- The truth value. -/
def bool? : Datum → Option Bool
  | .bool value => some value
  | _ => none

/-- The elements of a list. -/
def elements? : Datum → Option (List Datum)
  | .list elements => some elements
  | _ => none

/-- The texts of a list of texts. -/
def texts? (value : Datum) : Option (List String) :=
  value.elements?.bind (fun elements => elements.mapM text?)

/-- The values of named fields: by name in a table, where other names are ignored, or in order in a
list, where the last may be missing. A list may be longer than the fields only if `surplus`. -/
def record? (names : List String) (surplus : Bool) : Datum → Option (List (Option Datum))
  | .table entries => some (names.map (fun name => entries.lookup name))
  | .list elements =>
    if surplus || elements.length ≤ names.length then
      some ((elements.take names.length).map some ++
        List.replicate (names.length - elements.length) none)
    else none
  | _ => none

/-- A field that may be missing. -/
def orElse {α : Type} (read : Datum → Option α) (default : α) : Option Datum → Option α
  | none => some default
  | some value => read value

/-- A text that may be missing or null. -/
def optionalText? : Option Datum → Option (Option String)
  | none => some none
  | some .null => some none
  | some value => value.text?.map some

end Datum

end ClassAtlas
