import BinaryPatching.Text.Numeral

/-!
# `BinaryPatching.Text.Position` — positions in a text, as messages name them

## Contents
- `Position`, with `Position.behind` (the position behind a text) and `Position.written`.
- `Position.read?`: the position that a text consists of.
- `Position.splitEnd`: a message that ends in a position.
- `Position.mark`: a message with its position.
-/

namespace BinaryPatching.Text

/-- A position in a text. -/
structure Position where
  /-- The line, from one on. -/
  line : Nat
  /-- The number of bytes that stand before it in its line. -/
  column : Nat
deriving Repr, DecidableEq

namespace Position

/-- The position behind a text. -/
def behind (cs : List Char) : Position where
  line := 1 + cs.count '\n'
  column := (cs.reverse.takeWhile (· != '\n')).foldl (fun bytes c => bytes + c.utf8Size) 0

/-- A position as the end of a message. -/
def written (p : Position) : String := " at line " ++ decimal p.line ++ " column " ++ decimal p.column

/-- A numeral of a position, which fits 64 bits. -/
def number? (digits : List Char) : Option Nat := (readNumeral 10 digits).filter (· < 0x10000000000000000)

/-- What follows a word at the start of a text. -/
def after? (word : String) (cs : List Char) : Option (List Char) :=
  if word.toList.isPrefixOf cs then some (cs.drop word.toList.length) else none

/-- The position that a text consists of. -/
def read? (cs : List Char) : Option Position :=
  (after? " at line " cs).bind fun rest =>
    let digits := rest.takeWhile Char.isDigit
    (after? " column " (rest.drop digits.length)).bind fun columnDigits =>
      match number? digits, number? columnDigits with
      | some line, some column => some ⟨line, column⟩
      | _, _ => none

/-- A message that ends in a position, as what stands before and the position. -/
def splitEnd : List Char → Option (List Char × Position)
  | [] => none
  | c :: rest =>
    match read? (c :: rest) with
    | some p => some ([], p)
    | none => (splitEnd rest).map fun (words, p) => (c :: words, p)

/-- A message with its position. One that ends in a position already keeps it, unless that is no line. -/
def mark (p : Position) (message : String) : String :=
  match splitEnd message.toList with
  | some (words, stated) => String.ofList words ++ (if stated.line = 0 then p else stated).written
  | none => message ++ p.written

end Position

end BinaryPatching.Text
