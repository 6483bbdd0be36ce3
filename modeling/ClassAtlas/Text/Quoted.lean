import ClassAtlas.Text.Digit
import ClassAtlas.Text.Unprintable

/-!
# Quoted text

A text between double quotes, as descriptions of matchers show it. The quote, the backslash and the
common controls have short escapes; other unprintable characters are spelled by number.
-/

namespace ClassAtlas.Text

/-- The spelling of one character in a quoted text. -/
def quoteChar (c : Char) : List Char :=
  if c = '\x00' then ['\\', '0']
  else if c = '\t' then ['\\', 't']
  else if c = '\r' then ['\\', 'r']
  else if c = '\n' then ['\\', 'n']
  else if c = '\\' then ['\\', '\\']
  else if c = '"' then ['\\', '"']
  else if isUnprintable c then ['\\', 'u', '\x7b'] ++ hexDigits c.toNat ++ ['\x7d']
  else [c]

/-- The text in double quotes. -/
def quoted (text : String) : String :=
  String.ofList ('"' :: text.toList.flatMap quoteChar ++ ['"'])

end ClassAtlas.Text
