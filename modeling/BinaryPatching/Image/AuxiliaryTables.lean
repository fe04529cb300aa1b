import BinaryPatching.Image.Linkage

/-!
# `BinaryPatching.Image.AuxiliaryTables` — tables of an executable that are checked and not kept

An executable may announce a debug directory, a table for exceptions and a table of certificates. Nothing of them
enters an image, but a file in which one of them makes no sense is malformed.

## Contents
- `Locator.hasDebugRecord`: the debug directory leads to a record that lies in the file.
- `Locator.hasUnwindEntries`: the table for exceptions holds whole entries at an aligned place.
- `areCertificates`: a stretch of the file is filled by certificates.
-/

namespace BinaryPatching

/-! ## Debug records -/

/-- The kind of debug record that names the file with the symbols. -/
def symbolFileKind : UInt32 := 2

/-- The mark of a record that names the file with the symbols. -/
def symbolFileMark : UInt32 := 0x53445352

/-- The size of such a record without the name: the mark, sixteen bytes of identity, and an age. -/
def symbolFileHeadSize : Nat := 24

/-- Whether the file holds a record that names the file with the symbols, at an offset and of an announced size. A
    record with another mark may end anywhere. -/
def isSymbolFileRecord (data : Bytes) (offset size : Nat) : Bool :=
  decide (symbolFileHeadSize ≤ size) &&
    match Bytes.word32? data offset with
    | none => false
    | some mark => mark != symbolFileMark || decide (offset + size ≤ data.length)

namespace Locator

/-- The size of an entry of the debug directory. -/
def debugEntrySize : Nat := 28

/-- Whether the first entry of the debug directory is in the file, together with the record that it leads to if
    that names the file with the symbols. -/
def hasDebugRecord (l : Locator) (table : TableEntry) : Bool :=
  let record? : Option Bool := do
    let place ← l.offset? table.address.toNat
    let entry ← Bytes.slice? l.data place debugEntrySize
    let kind ← Bytes.word32? entry 12
    let size ← Bytes.word32? entry 16
    let offset ← Bytes.word32? entry 24
    return kind != symbolFileKind || isSymbolFileRecord l.data offset.toNat size.toNat
  record?.getD false

/-! ## Tables for exceptions -/

/-- The size of an entry of the table for exceptions where an entry has a start, a stop and a place of unwind
    data. -/
def unwindEntrySize : Nat := 12

/-- Whether the table for exceptions holds whole entries and begins at an offset of whole words. -/
def hasUnwindEntries (l : Locator) (table : TableEntry) : Bool :=
  table.size.toNat % unwindEntrySize == 0 && (l.offset? table.address.toNat).any (· % 4 == 0)

end Locator

/-! ## Certificates -/

/-- The size of the head of a certificate: its size, its revision and its kind. -/
def certificateHeadSize : Nat := 8

/-- The revisions of certificates. -/
def certificateRevisions : List UInt16 := [0x0100, 0x0200]

/-- The kinds of certificates. -/
def certificateKinds : List UInt16 := [1, 2, 3, 4]

/-- The size of what a certificate at an offset holds behind its head, if all of it is in the file and of a known
    revision and kind. -/
def certificateSize? (data : Bytes) (offset : Nat) : Option Nat := do
  let head ← Bytes.slice? data offset certificateHeadSize
  let size ← Bytes.word32? head 0
  let revision ← Bytes.word16? head 4
  let kind ← Bytes.word16? head 6
  let held := size.toNat - certificateHeadSize
  if certificateRevisions.contains revision && certificateKinds.contains kind
      && decide (offset + certificateHeadSize + held ≤ data.length) then some held
  else none

/-- Whether certificates fill the file from an offset to a stop. Behind the first one each begins at a multiple of
    eight, and the last one may reach beyond the stop. -/
def areCertificates (data : Bytes) (stop offset : Nat) : Bool :=
  if _h : offset < stop then
    match certificateSize? data offset with
    | none => false
    | some held => areCertificates data stop (roundUp (offset + certificateHeadSize + held) 8)
  else true
termination_by stop - offset
decreasing_by
  have := le_roundUp (offset + certificateHeadSize + held) (show 0 < 8 by decide)
  simp only [certificateHeadSize] at this ⊢
  omega

/-- Whether a table of certificates makes sense. Its address is an offset in the file. -/
def isCertificateTable (data : Bytes) (table : TableEntry) : Bool :=
  let stop := table.address.toNat + table.size.toNat
  decide (stop ≤ data.length) && areCertificates data stop table.address.toNat

end BinaryPatching
