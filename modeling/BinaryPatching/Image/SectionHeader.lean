import BinaryPatching.Bytes.Basic
import BinaryPatching.Text.Numeral

/-!
# `BinaryPatching.Image.SectionHeader` — the section table of executables and object files

The headers of both kinds of file are read here: the common file header, and the section table with its names. A
name that does not fit its eight bytes stands in the string table behind the symbols, and the header holds its
place there in decimal, or in base 64 when it is far away.

## Contents
- `cString?`: a text that ends at a zero byte.
- `FileHeader`, `SectionHeader`: the headers.
- `SectionHeader.readTable?`: the section table.
- `fileOffset?`: the file offset of an address relative to the image base.
-/

namespace BinaryPatching

open Text

/-! ## Texts in headers -/

/-- The text at an offset, up to a zero byte or the end of the data. -/
def cString? (data : Bytes) (offset : Nat) : Option String :=
  if offset < data.length then Bytes.text? ((data.drop offset).takeWhile (· != 0)) else none

/-- The value of a digit in base 64. -/
def base64Digit? (c : Char) : Option Nat :=
  if c.isUpper then some (c.toNat - 65)
  else if c.isLower then some (c.toNat - 71)
  else if c.isDigit then some (c.toNat + 4)
  else if c = '+' then some 62
  else if c = '/' then some 63
  else none

/-- The number that digits in base 64 continue when `value` has been read. -/
def readBase64 (value : Nat) : List Char → Option Nat
  | [] => some value
  | c :: rest => (base64Digit? c).bind fun d => readBase64 (64 * value + d) rest

/-- The place in the string table that a name of eight bytes stands for: `none` if the name stands for itself,
    and within that, no number if it makes no sense. -/
def longNamePlace? (name : Bytes) : Option (Option Nat) :=
  match name with
  | 0x2F :: 0x2F :: _ => some ((cString? name 2).bind fun digits => readBase64 0 digits.toList)
  | 0x2F :: _ => some ((cString? name 1).bind fun digits => readUnsigned 10 0x10000000000000000 digits.toList)
  | _ => none

/-! ## Headers -/

/-- What the common file header says about the tables after it. -/
structure FileHeader where
  /-- The machine that the code is for. -/
  machine : UInt16
  /-- The number of sections. -/
  sectionCount : Nat
  /-- The offset of the symbol table. -/
  symbolTable : Nat
  /-- The number of symbols. -/
  symbolCount : Nat
  /-- The size of the optional header. -/
  optionalSize : Nat
deriving Repr, DecidableEq

/-- The size of the common file header. -/
def FileHeader.size : Nat := 20

/-- The size of a symbol in the symbol table. -/
def FileHeader.symbolSize : Nat := 18

/-- The common file header at an offset. -/
def FileHeader.read? (data : Bytes) (offset : Nat) : Option FileHeader := do
  let header ← Bytes.slice? data offset FileHeader.size
  let machine ← Bytes.word16? header 0
  let count ← Bytes.word16? header 2
  let symbols ← Bytes.word32? header 8
  let symbolCount ← Bytes.word32? header 12
  let optionalSize ← Bytes.word16? header 16
  return ⟨machine, count.toNat, symbols.toNat, symbolCount.toNat, optionalSize.toNat⟩

/-- The offset of the string table: it follows the symbols. -/
def FileHeader.stringTable (h : FileHeader) : Nat := h.symbolTable + FileHeader.symbolSize * h.symbolCount

/-- One entry of the section table. -/
structure SectionHeader where
  /-- The name, if its bytes are text. -/
  name : Option String
  /-- The size in memory. -/
  virtualSize : UInt32
  /-- The address relative to the image base. -/
  virtualAddress : UInt32
  /-- The size in the file. -/
  rawSize : UInt32
  /-- The offset in the file. -/
  rawOffset : UInt32
  /-- The flags. -/
  flags : UInt32
deriving Repr, DecidableEq

namespace SectionHeader

/-- The size of an entry. -/
def size : Nat := 40

/-- The entry at an offset. A long name has to be found in the string table. -/
def read? (data : Bytes) (offset stringTable : Nat) : Option SectionHeader := do
  let entry ← Bytes.slice? data offset size
  let nameBytes := entry.take 8
  let name ← match longNamePlace? nameBytes with
    | none => some (cString? nameBytes 0)
    | some place => place.bind fun n => (cString? data (stringTable + n)).map some
  let virtualSize ← Bytes.word32? entry 8
  let virtualAddress ← Bytes.word32? entry 12
  let rawSize ← Bytes.word32? entry 16
  let rawOffset ← Bytes.word32? entry 20
  let flags ← Bytes.word32? entry 36
  return ⟨name, virtualSize, virtualAddress, rawSize, rawOffset, flags⟩

/-- A number of entries from an offset on. -/
def readEntries? (data : Bytes) (stringTable : Nat) : Nat → Nat → Option (List SectionHeader)
  | 0, _ => some []
  | n + 1, offset => do
    let entry ← read? data offset stringTable
    let rest ← readEntries? data stringTable n (offset + size)
    return entry :: rest

/-- The section table that a file header announces. No more entries are believed than the file could hold. -/
def readTable? (data : Bytes) (header : FileHeader) (offset : Nat) : Option (List SectionHeader) :=
  if data.length / size < header.sectionCount then none
  else readEntries? data header.stringTable header.sectionCount offset

end SectionHeader

/-! ## From addresses to the file -/

/-- A number rounded up to a multiple. -/
def roundUp (n multiple : Nat) : Nat := (n + multiple - 1) / multiple * multiple

/-- Rounding up makes nothing smaller. -/
theorem le_roundUp (n : Nat) {multiple : Nat} (h : 0 < multiple) : n ≤ roundUp n multiple := by
  have hdiv := Nat.div_add_mod (n + multiple - 1) multiple
  have hmod := Nat.mod_lt (n + multiple - 1) h
  rw [Nat.mul_comm] at hdiv
  unfold roundUp
  omega

/-- The file offset at which a loader begins to read a section: offsets are rounded down to half a kilobyte. -/
def SectionHeader.loadedFrom (s : SectionHeader) : Nat := s.rawOffset.toNat / 512 * 512

/-- The number of bytes that a loader reads of a section: whole pages, but not beyond the aligned end of its
    contents. -/
def SectionHeader.loadedSize (alignment : Nat) (s : SectionHeader) : Nat :=
  let inFile := min (roundUp (s.rawOffset.toNat + s.rawSize.toNat) alignment - s.loadedFrom)
    (roundUp s.rawSize.toNat 4096)
  if s.virtualSize = 0 then inFile else min inFile (roundUp s.virtualSize.toNat 4096)

/-- The file offset of an address relative to the image base, by the first section that holds it. The alignment of
    sections has to be a power of two. -/
def fileOffset? (sections : List SectionHeader) (alignment address : Nat) : Option Nat :=
  if alignment = 0 ∨ alignment &&& (alignment - 1) ≠ 0 then none
  else
    (sections.find? fun s => decide (s.virtualAddress.toNat ≤ address)
      && decide (address < s.virtualAddress.toNat + s.loadedSize alignment)).map
        fun s => address - s.virtualAddress.toNat + s.loadedFrom

end BinaryPatching
