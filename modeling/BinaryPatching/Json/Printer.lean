import BinaryPatching.Json.Basic

/-!
# `BinaryPatching.Json.Printer` — JSON values as text, one item or member a line

The layout of the files that this library writes: two blanks for each level, a blank after every colon, empty
arrays and objects on one line.

## Contents
- `Json.escapeChar`, `Json.stringLiteral`: strings.
- `Json.lay`: a value at a level of indentation.
- `Json.pretty`: the text of a value.
-/

namespace BinaryPatching.Json

/-- A hexadecimal digit, small letters. -/
def escapeDigit (n : Nat) : Char := if n < 10 then Char.ofNat (48 + n) else Char.ofNat (87 + n)

/-- A character inside a string literal. The quote, the backslash and the controls of ASCII are escaped; every
    other character stands for itself. -/
def escapeChar (c : Char) : List Char :=
  if c = '"' then ['\\', '"']
  else if c = '\\' then ['\\', '\\']
  else if c = '\n' then ['\\', 'n']
  else if c = '\r' then ['\\', 'r']
  else if c = '\t' then ['\\', 't']
  else if c.toNat = 8 then ['\\', 'b']
  else if c.toNat = 12 then ['\\', 'f']
  else if c.toNat < 0x20 then ['\\', 'u', '0', '0', escapeDigit (c.toNat / 16), escapeDigit (c.toNat % 16)]
  else [c]

/-- The literal of a text. -/
def stringLiteral (s : String) : List Char := '"' :: s.toList.flatMap escapeChar ++ ['"']

/-- A new line, indented to a level. -/
def newLine (level : Nat) : List Char := '\n' :: List.replicate (2 * level) ' '

mutual
/-- A value whose first line stands at a level of indentation. -/
def lay (level : Nat) : Json → List Char
  | .null => ['n', 'u', 'l', 'l']
  | .bool true => ['t', 'r', 'u', 'e']
  | .bool false => ['f', 'a', 'l', 's', 'e']
  | .number literal => literal.toList
  | .string text => stringLiteral (text.getD "")
  | .array [] => ['[', ']']
  | .array (v :: rest) =>
    '[' :: newLine (level + 1) ++ lay (level + 1) v ++ layItems (level + 1) rest ++ newLine level ++ [']']
  | .object [] => ['\x7b', '\x7d']
  | .object ((k, v) :: rest) =>
    '\x7b' :: newLine (level + 1) ++ stringLiteral (k.getD "") ++ [':', ' '] ++ lay (level + 1) v
      ++ layMembers (level + 1) rest ++ newLine level ++ ['\x7d']
  | .broken => []

/-- The items after the first, each on its line. -/
def layItems (level : Nat) : List Json → List Char
  | [] => []
  | v :: rest => ',' :: newLine level ++ lay level v ++ layItems level rest

/-- The members after the first, each on its line. -/
def layMembers (level : Nat) : List (Option String × Json) → List Char
  | [] => []
  | (k, v) :: rest =>
    ',' :: newLine level ++ stringLiteral (k.getD "") ++ [':', ' '] ++ lay level v ++ layMembers level rest
end

/-- The text of a value. -/
def pretty (v : Json) : String := String.ofList (lay 0 v)

@[simp] theorem toList_pretty (v : Json) : (pretty v).toList = lay 0 v := by simp [pretty]

end BinaryPatching.Json
