import BinaryPatching.Json.Basic

/-!
# `BinaryPatching.Json.Reader` — JSON values from text

One pass over the characters. Where the text breaks the grammar the reader leaves `Json.broken` and goes no
further into that value.

## Contents
- `Json.readString`: a string literal after its opening quote.
- `Json.readNumber`: the longest number literal.
- `Json.readValue`, `Json.readItems`, `Json.readMembers`: values, with the rest of the text.
- `Json.Document`, `Json.read`: a whole text, and whether only blanks follow its value.
-/

namespace BinaryPatching.Json

/-- The blanks of JSON. -/
def isSpace (c : Char) : Bool := c == ' ' || c == '\n' || c == '\t' || c == '\r'

/-- The text without its leading blanks. -/
def skipSpace (cs : List Char) : List Char := cs.dropWhile isSpace

/-! ## Strings -/

/-- The value of a hexadecimal digit of either case. -/
def hexValue (c : Char) : Option Nat :=
  if '0' ≤ c ∧ c ≤ '9' then some (c.toNat - 48)
  else if 'a' ≤ c ∧ c ≤ 'f' then some (c.toNat - 87)
  else if 'A' ≤ c ∧ c ≤ 'F' then some (c.toNat - 55)
  else none

/-- The code unit that four hexadecimal digits denote. -/
def hexUnit (a b c d : Char) : Option Nat :=
  match hexValue a, hexValue b, hexValue c, hexValue d with
  | some a, some b, some c, some d => some (((a * 16 + b) * 16 + c) * 16 + d)
  | _, _, _, _ => none

/-- The character that an escape of one letter denotes. -/
def simpleEscape (c : Char) : Option Char :=
  if c = '"' ∨ c = '\\' ∨ c = '/' then some c
  else if c = 'b' then some (Char.ofNat 8)
  else if c = 'f' then some (Char.ofNat 12)
  else if c = 'n' then some '\n'
  else if c = 'r' then some '\r'
  else if c = 't' then some '\t'
  else none

/-- One step of a string literal: what stands next, and the text after it. -/
inductive Piece where
  /-- The closing quote. -/
  | close (rest : List Char)
  /-- A character. -/
  | char (c : Char) (rest : List Char)
  /-- Half of a surrogate pair, which is no character. -/
  | half (rest : List Char)
  /-- Nothing that a literal may hold. -/
  | fault

/-- The escape of a code unit, after its four digits. A high surrogate takes the low one that must follow. -/
def unitPiece (unit : Nat) (rest : List Char) : Piece :=
  if 0xD800 ≤ unit ∧ unit < 0xDC00 then
    match rest with
    | '\\' :: 'u' :: e :: f :: g :: h :: after =>
      match hexUnit e f g h with
      | some low =>
        if 0xDC00 ≤ low ∧ low < 0xE000 then
          .char (Char.ofNat (0x10000 + (unit - 0xD800) * 0x400 + (low - 0xDC00))) after
        else .half rest
      | none => .fault
    | _ => .half rest
  else if 0xDC00 ≤ unit ∧ unit < 0xE000 then .half rest
  else .char (Char.ofNat unit) rest

/-- The next step of a string literal. -/
def nextPiece : List Char → Piece
  | [] => .fault
  | '"' :: rest => .close rest
  | '\\' :: 'u' :: a :: b :: c :: d :: rest =>
    match hexUnit a b c d with
    | some unit => unitPiece unit rest
    | none => .fault
  | '\\' :: c :: rest =>
    match simpleEscape c with
    | some c => .char c rest
    | none => .fault
  | c :: rest => if c.toNat < 0x20 ∨ c = '\\' then .fault else .char c rest

/-- The length of the text that a step leaves. -/
def Piece.length : Piece → Nat
  | .close rest => rest.length
  | .char _ rest => rest.length
  | .half rest => rest.length
  | .fault => 0

theorem unitPiece_length_le (unit : Nat) (rest : List Char) : (unitPiece unit rest).length ≤ rest.length := by
  unfold unitPiece
  split
  · split
    · split
      · split
        · simp [Piece.length]; omega
        · simp [Piece.length]
      · simp [Piece.length]
    · simp [Piece.length]
  · split <;> simp [Piece.length]

/-- Every step reads at least one character. -/
theorem nextPiece_length_lt {c : Char} {cs : List Char} : (nextPiece (c :: cs)).length < (c :: cs).length := by
  unfold nextPiece
  split
  · simp_all
  · simp_all [Piece.length]
  · rename_i h
    split
    · rw [h]
      exact Nat.lt_of_le_of_lt (unitPiece_length_le _ _) (by simp only [List.length_cons]; omega)
    · simp [Piece.length]
  · rename_i h
    split
    · rw [h]; simp only [Piece.length, List.length_cons]; omega
    · simp [Piece.length]
  · rename_i h
    split
    · simp [Piece.length]
    · rw [h]; simp [Piece.length]

/-- The text of a literal of which `read` has been read, last character first; `whole` tells that no surrogate
    was left alone. The text after the closing quote is returned with it. -/
def readString (read : List Char) (whole : Bool) (cs : List Char) : Option (Option String × List Char) :=
  match _h : nextPiece cs with
  | .close rest => some (if whole then some (String.ofList read.reverse) else none, rest)
  | .char c rest => readString (c :: read) whole rest
  | .half rest => readString read false rest
  | .fault => none
termination_by cs.length
decreasing_by
  all_goals
    cases cs with
    | nil => simp [nextPiece] at _h
    | cons d ds =>
      have hl := @nextPiece_length_lt d ds
      rw [_h] at hl
      exact hl

/-! ## Numbers -/

/-- The leading digits, and the rest. -/
def digits (cs : List Char) : List Char × List Char := (cs.takeWhile Char.isDigit, cs.dropWhile Char.isDigit)

/-- The fraction of a number, if one stands here; `none` for a point without digits. -/
def readFraction : List Char → Option (List Char × List Char)
  | '.' :: rest =>
    let (ds, after) := digits rest
    if ds.isEmpty then none else some ('.' :: ds, after)
  | cs => some ([], cs)

/-- The exponent of a number, if one stands here; `none` for a mark without digits. -/
def readExponent : List Char → Option (List Char × List Char)
  | [] => some ([], [])
  | c :: rest =>
    if c = 'e' ∨ c = 'E' then
      let (sign, tail) := match rest with
        | '+' :: t => (['+'], t)
        | '-' :: t => (['-'], t)
        | t => ([], t)
      let (ds, after) := digits tail
      if ds.isEmpty then none else some (c :: sign ++ ds, after)
    else some ([], c :: rest)

/-- The whole part of a number: a zero alone, or digits that begin with another. -/
def readWhole : List Char → Option (List Char × List Char)
  | '0' :: rest => some (['0'], rest)
  | cs =>
    let (ds, after) := digits cs
    if ds.isEmpty then none else some (ds, after)

/-- The number literal that stands here. -/
def readNumber (cs : List Char) : Option (String × List Char) := do
  let (sign, rest) := match cs with
    | '-' :: t => (['-'], t)
    | t => ([], t)
  let (whole, rest) ← readWhole rest
  let (fraction, rest) ← readFraction rest
  let (power, rest) ← readExponent rest
  return (String.ofList (sign ++ whole ++ fraction ++ power), rest)

/-! ## Values -/

mutual
/-- The value that stands here, and the text after it. `fuel` bounds the depth and the number of the parts. -/
def readValue : Nat → List Char → Json × List Char
  | 0, cs => (.broken, cs)
  | fuel + 1, cs =>
    match skipSpace cs with
    | '\x7b' :: rest =>
      match skipSpace rest with
      | '\x7d' :: after => (.object [], after)
      | start =>
        let (members, after) := readMembers fuel start
        (.object members, after)
    | '[' :: rest =>
      match skipSpace rest with
      | ']' :: after => (.array [], after)
      | start =>
        let (items, after) := readItems fuel start
        (.array items, after)
    | '"' :: rest =>
      match readString [] true rest with
      | some (text, after) => (.string text, after)
      | none => (.broken, rest)
    | 'n' :: 'u' :: 'l' :: 'l' :: after => (.null, after)
    | 't' :: 'r' :: 'u' :: 'e' :: after => (.bool true, after)
    | 'f' :: 'a' :: 'l' :: 's' :: 'e' :: after => (.bool false, after)
    | start =>
      match readNumber start with
      | some (literal, after) => (.number literal, after)
      | none => (.broken, start)

/-- The items of an array from here to its closing bracket. -/
def readItems : Nat → List Char → List Json × List Char
  | 0, cs => ([.broken], cs)
  | fuel + 1, cs =>
    let (v, rest) := readValue fuel cs
    match skipSpace rest with
    | ',' :: more =>
      let (items, after) := readItems fuel more
      (v :: items, after)
    | ']' :: after => ([v], after)
    | after => ([v, .broken], after)

/-- The members of an object from here to its closing brace. -/
def readMembers : Nat → List Char → List (Option String × Json) × List Char
  | 0, cs => ([(none, .broken)], cs)
  | fuel + 1, cs =>
    match skipSpace cs with
    | '"' :: rest =>
      match readString [] true rest with
      | none => ([(none, .broken)], rest)
      | some (key, afterKey) =>
        match skipSpace afterKey with
        | ':' :: start =>
          let (v, rest) := readValue fuel start
          match skipSpace rest with
          | ',' :: more =>
            let (members, after) := readMembers fuel more
            ((key, v) :: members, after)
          | '\x7d' :: after => ([(key, v)], after)
          | after => ([(key, v), (none, .broken)], after)
        | after => ([(key, .broken)], after)
    | start => ([(none, .broken)], start)
end

/-- What a text holds: a value, and whether nothing but blanks follows it. -/
structure Document where
  /-- The value. -/
  value : Json
  /-- Whether the text ends with it. -/
  complete : Bool

/-- The value of a text. A value of `n` characters has at most `n` parts, so the length bounds the reading. -/
def read (text : String) : Document :=
  let cs := text.toList
  let (value, rest) := readValue (cs.length + 1) cs
  ⟨value, (skipSpace rest).isEmpty⟩

end BinaryPatching.Json
