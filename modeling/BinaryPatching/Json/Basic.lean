/-!
# `BinaryPatching.Json.Basic` — JSON values

A value as the reader finds it in a text. A text that stops being JSON somewhere still has the value read so far,
so that a fault of content early in a text is found before a fault of form late in it: the place where the form
is lost is a value of its own, `broken`.

## Contents
- `Json`, with `Json.wellFormed`: no part of the value is broken.
- `Json.text`: the string of a text.
-/

namespace BinaryPatching

/-- A JSON value. A number keeps its literal. A string is `none` when its escapes leave half of a surrogate pair
    alone, for then it denotes no text; so is the name of a member. -/
inductive Json where
  /-- The literal `null`. -/
  | null
  /-- The literals `true` and `false`. -/
  | bool (value : Bool)
  /-- A number, by its literal. -/
  | number (literal : String)
  /-- A string, by its text. -/
  | string (text : Option String)
  /-- An array. -/
  | array (items : List Json)
  /-- An object, its members in the order of the text. -/
  | object (members : List (Option String × Json))
  /-- The place where the text stops being JSON. -/
  | broken
deriving Inhabited

namespace Json

/-- The string of a text. -/
def text (s : String) : Json := .string (some s)

/-- The object of named members. -/
def record (members : List (String × Json)) : Json := .object (members.map fun (k, v) => (some k, v))

mutual
/-- Whether the value was read to its end. -/
def wellFormed : Json → Bool
  | .array items => wellFormedItems items
  | .object members => wellFormedMembers members
  | .broken => false
  | _ => true

/-- Whether all items were read to their ends. -/
def wellFormedItems : List Json → Bool
  | [] => true
  | v :: rest => wellFormed v && wellFormedItems rest

/-- Whether all members were read to their ends. -/
def wellFormedMembers : List (Option String × Json) → Bool
  | [] => true
  | (_, v) :: rest => wellFormed v && wellFormedMembers rest
end

end Json

end BinaryPatching
