/-!
# Ordinals

`1st`, `2nd`, `3rd`, `4th`: the suffix follows the last digit, except that a number ending in 11, 12
or 13 takes `th`.
-/

namespace ClassAtlas.Text

/-- The suffix of an ordinal number. -/
def ordinalSuffix (n : Nat) : String :=
  if 11 ≤ n % 100 ∧ n % 100 ≤ 13 then "th"
  else match n % 10 with
    | 1 => "st"
    | 2 => "nd"
    | 3 => "rd"
    | _ => "th"

/-- The number followed by its suffix. -/
def ordinal (n : Nat) : String :=
  toString n ++ ordinalSuffix n

end ClassAtlas.Text
