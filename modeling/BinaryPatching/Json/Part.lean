import BinaryPatching.Json.Reader
import BinaryPatching.Text.Position

/-!
# `BinaryPatching.Json.Part` — where a part of a value stands in its text

A part is named by its path: the number of the member or item in each object or array, from the outermost on.

## Contents
- `Json.afterValue`: the text behind the value that stands here.
- `Json.memberValue`, `Json.itemValue`: the text from a member's value or an item on.
- `Json.afterPart`: the text behind the part at a path.
- `Json.positionOf`: the position behind that part.
-/

namespace BinaryPatching.Json

open Text

/-- The text behind the value that stands here. -/
def afterValue (cs : List Char) : List Char := (readValue (cs.length + 1) cs).2

/-- The text from the value of a member on, `count` members after the one that stands here. -/
def memberValue (count : Nat) (cs : List Char) : List Char :=
  match skipSpace cs with
  | '"' :: rest =>
    match readString [] true rest with
    | none => rest
    | some (_, afterKey) =>
      match skipSpace afterKey with
      | ':' :: start =>
        match count with
        | 0 => start
        | n + 1 =>
          match skipSpace (afterValue start) with
          | ',' :: more => memberValue n more
          | after => after
      | after => after
  | after => after

/-- The text from an item on, `count` items after the one that stands here. -/
def itemValue : Nat → List Char → List Char
  | 0, cs => cs
  | n + 1, cs =>
    match skipSpace (afterValue cs) with
    | ',' :: more => itemValue n more
    | after => after

/-- The text behind a member: the closing brace is passed over with it, a comma is not. -/
def passMember (cs : List Char) : List Char :=
  match skipSpace cs with
  | '\x7d' :: after => after
  | after => after

/-- The text behind an item: the closing bracket is passed over with it, and so is a comma with the blanks behind. -/
def passItem (cs : List Char) : List Char :=
  match skipSpace cs with
  | ']' :: after => after
  | ',' :: after => skipSpace after
  | after => after

/-- The text behind the part at a path. -/
def afterPart : List Nat → List Char → List Char
  | [], cs => afterValue cs
  | part :: path, cs =>
    match skipSpace cs with
    | '\x7b' :: rest =>
      let behind := afterPart path (memberValue part rest)
      if path.isEmpty then passMember behind else behind
    | '[' :: rest =>
      let behind := afterPart path (itemValue part rest)
      if path.isEmpty then passItem behind else behind
    | after => after

/-- The position behind the part at a path. -/
def positionOf (text : String) (path : List Nat) : Position :=
  let cs := text.toList
  Position.behind (cs.take (cs.length - (afterPart path cs).length))

end BinaryPatching.Json
