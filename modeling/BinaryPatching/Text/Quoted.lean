import BinaryPatching.Text.CodePointSet
import BinaryPatching.Text.Numeral
import BinaryPatching.Text.UnprintableTable

/-!
# `BinaryPatching.Text.Quoted` — a name in quotes, with what cannot be shown escaped

The form in which messages show a name that was given from outside.

## Contents
- `escapeChar`: one character of a quoted name.
- `quoted`: the name between double quotes.
-/

namespace BinaryPatching.Text

/-- One character of a quoted name: the usual escapes for the double quote, the backslash and the common controls, and
    the code point in braces for whatever else has no glyph. A single quote stands for itself, since the name stands
    between double ones. -/
def escapeChar (c : Char) : List Char :=
  if c = '\x00' then ['\\', '0']
  else if c = '\t' then ['\\', 't']
  else if c = '\r' then ['\\', 'r']
  else if c = '\n' then ['\\', 'n']
  else if c = '"' ∨ c = '\\' then ['\\', c]
  else if c.toNat < 0x20 ∨ c.toNat = 0x7F ∨ (0x80 ≤ c.toNat ∧ inBoundaries unprintableBoundaries c) then
    ['\\', 'u', '\x7b'] ++ Nat.toDigits 16 c.toNat ++ ['\x7d']
  else [c]

/-- A name between double quotes. -/
def quoted (s : String) : String :=
  onChars (fun cs => '"' :: cs.flatMap escapeChar ++ ['"']) s

end BinaryPatching.Text
