import BinaryPatching.Bytes.Hex
import BinaryPatching.Pattern.Token

/-!
# `BinaryPatching.Pattern.Bytes` — patterns for bytes

A row of bytes, some of which may be left open. Patterns are written as hexadecimal pairs, with `??` for an open
byte; blanks and commas may stand between them.

## Contents
- `BytePattern`, from bytes, from texts, and from its written form (`BytePattern.parse`).
- `BytePattern.matchesStart`: a match at the start of some data.
- `BytePattern.findFrom`: the first match at or after a position.
- `BytePattern.written`: the written form.
-/

namespace BinaryPatching

open Text

/-- A row of bytes to look for; `none` is an open byte. -/
structure BytePattern where
  /-- The bytes. -/
  items : List (Option UInt8)
deriving Repr, DecidableEq

namespace BytePattern

/-- The pattern for given bytes. -/
def ofBytes (bytes : Bytes) : BytePattern := ⟨bytes.map some⟩

/-- The pattern for a text in UTF-8. -/
def ofText (text : String) : BytePattern := ofBytes (Bytes.ofText text)

/-- The pattern for a text in UTF-16, low bytes first. -/
def ofTextWide (text : String) : BytePattern := ofBytes (Bytes.ofTextWide text)

/-- The value of a hexadecimal digit. -/
def digit? (c : Char) : Option Nat := if isDigitOf 16 c then digitValue c else none

-- Kept closed, so that the codes of the blanks are not compared wherever `readItems` is unfolded.
/-- Whether a character may stand between bytes: a blank or a comma. -/
@[irreducible] def isSeparator (c : Char) : Bool := isBlank c || c == ','

theorem isSeparator_iff {c : Char} : isSeparator c = true ↔ isBlank c = true ∨ c = ',' := by
  rw [isSeparator, Bool.or_eq_true, beq_iff_eq]

/-- The bytes of a written pattern, or nothing if it holds something else. One digit or one `?` stands for a
    whole byte where no second one follows. -/
def readItems : List Char → Option (List (Option UInt8))
  | [] => some []
  | '?' :: '?' :: rest => (readItems rest).map (none :: ·)
  | '?' :: rest => (readItems rest).map (none :: ·)
  | c :: rest =>
    if isSeparator c then readItems rest
    else
      match digit? c with
      | none => none
      | some high =>
        match rest with
        | [] => some [some (UInt8.ofNat high)]
        | d :: behind =>
          match digit? d with
          | some low => (readItems behind).map (some (UInt8.ofNat (16 * high + low)) :: ·)
          | none => (readItems (d :: behind)).map (some (UInt8.ofNat high) :: ·)

/-- The pattern of a written form, which must hold at least one byte. -/
def parse (text : String) : Except PatternError BytePattern :=
  match readItems text.toList with
  | none => .error (.invalidBytePattern text)
  | some [] => .error .empty
  | some items => .ok ⟨items⟩

/-- The number of bytes. -/
def size (p : BytePattern) : Nat := p.items.length

/-- Whether there is nothing to look for. -/
def isEmpty (p : BytePattern) : Bool := p.items.isEmpty

/-- Whether a byte agrees with an item. -/
def agrees (item : Option UInt8) (b : UInt8) : Bool :=
  match item with
  | some wanted => wanted == b
  | none => true

/-- Whether the data starts with a match. -/
def matchesItems : List (Option UInt8) → Bytes → Bool
  | [], _ => true
  | _ :: _, [] => false
  | item :: items, b :: rest => agrees item b && matchesItems items rest

/-- Whether the data starts with a match. -/
def matchesStart (p : BytePattern) (data : Bytes) : Bool := matchesItems p.items data

/-- The first byte that is not open, with its place in the pattern. -/
def anchor? (p : BytePattern) : Option (Nat × UInt8) :=
  let place := (p.items.takeWhile Option.isNone).length
  (p.items[place]?.bind id).map fun b => (place, b)

/-- The first match among the next `count` positions from `position` on, where `rest` is the data from there. The
    byte at the anchor is looked at first. -/
def search (p : BytePattern) (place : Nat) (byte : UInt8) : Nat → Nat → Bytes → Option Nat
  | 0, _, _ => none
  | count + 1, position, rest =>
    if rest[place]? == some byte && p.matchesStart rest then some position
    else search p place byte count (position + 1) (rest.drop 1)

/-- The first match at or after a position. An empty pattern is found nowhere. -/
def findFrom (p : BytePattern) (data : Bytes) (start : Nat) : Option Nat :=
  if p.isEmpty ∨ data.length < start + p.size then none
  else
    match p.anchor? with
    | some (place, byte) => p.search place byte (data.length - p.size + 1 - start) start (data.drop start)
    | none => some start

/-- The first match. -/
def findIn (p : BytePattern) (data : Bytes) : Option Nat := p.findFrom data 0

/-- The written form of an item. -/
def itemText (item : Option UInt8) : String :=
  match item with
  | some b => Bytes.hex [b]
  | none => "??"

/-- The written form of a pattern. -/
def written (p : BytePattern) : String := " ".intercalate (p.items.map itemText)

end BytePattern

end BinaryPatching
