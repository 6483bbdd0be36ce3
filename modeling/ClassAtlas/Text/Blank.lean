/-!
# Blank characters

The characters with the Unicode property White_Space, and trimming by them. Names and references are
trimmed by this class, which is wider than the ASCII blanks: the ideographic space is in it, the
zero-width space is not.
-/

namespace ClassAtlas.Text

/-- The character has the property White_Space. -/
def isBlank (c : Char) : Bool :=
  let n := c.toNat
  (0x09 ≤ n && n ≤ 0x0D) || n == 0x20 || n == 0x85 || n == 0xA0 || n == 0x1680 ||
    (0x2000 ≤ n && n ≤ 0x200A) || n == 0x2028 || n == 0x2029 || n == 0x202F || n == 0x205F ||
    n == 0x3000

/-- Without the blanks at the front. -/
def trimLeft (s : List Char) : List Char :=
  s.dropWhile isBlank

/-- Without the blanks at the end. -/
def trimRight (s : List Char) : List Char :=
  (s.reverse.dropWhile isBlank).reverse

/-- Without the blanks at either end. -/
def trim (s : List Char) : List Char :=
  trimRight (trimLeft s)

end ClassAtlas.Text
