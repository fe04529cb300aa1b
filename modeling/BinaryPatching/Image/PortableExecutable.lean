import BinaryPatching.Image.AuxiliaryTables
import BinaryPatching.Image.Basic

/-!
# `BinaryPatching.Image.PortableExecutable` — images from executable files

The headers of an executable file are read one after the other: the marks at its start, the file header, the
optional header with its table directory, and the section table. Only files with addresses of 32 bits become
images.

## Contents
- `OptionalHeader`: entry point, base, alignment, and the announced tables.
- `Headers`: all headers of a file.
- `Headers.hasSoundTables`: the announced tables make sense, also those of which nothing is kept.
- `Image.parse`: the image of a file.
-/

namespace BinaryPatching

/-! ## Headers -/

/-- The optional header, as far as it matters here. -/
structure OptionalHeader where
  /-- Whether addresses take 64 bits. -/
  wide : Bool
  /-- The entry point, relative to the base. -/
  entry : UInt32
  /-- The base; of a wide one the low half. -/
  base : UInt32
  /-- The alignment of sections in the file. -/
  alignment : Nat
  /-- The announced tables, by their number. -/
  tables : List TableEntry
deriving Repr, DecidableEq

namespace OptionalHeader

/-- The number of tables that a header can announce. -/
def maxTables : Nat := 16

/-- A number of table entries from an offset on. -/
def readTables? (data : Bytes) : Nat → Nat → Option (List TableEntry)
  | 0, _ => some []
  | n + 1, offset => do
    let address ← Bytes.word32? data offset
    let size ← Bytes.word32? data (offset + 4)
    let rest ← readTables? data n (offset + 8)
    return ⟨address, size⟩ :: rest

/-- The optional header at an offset. Its first halfword tells how wide addresses are. -/
def read? (data : Bytes) (offset : Nat) : Option OptionalHeader := do
  let mark ← Bytes.word16? data offset
  let wide ← if mark = 0x10B then some false else if mark = 0x20B then some true else none
  let size := if wide then 112 else 96
  let header ← Bytes.slice? data offset size
  let entry ← Bytes.word32? header 16
  let base ← Bytes.word32? header (if wide then 24 else 28)
  let alignment ← Bytes.word32? header 36
  let count ← Bytes.word32? header (size - 4)
  if maxTables < count.toNat then none
  else
    let tables ← readTables? data count.toNat (offset + size)
    return ⟨wide, entry, base, alignment.toNat, tables⟩

/-- The table of a number, if it is announced: an entry of zeros announces nothing. -/
def table? (h : OptionalHeader) (n : Nat) : Option TableEntry :=
  h.tables[n]?.filter fun t => t.address ≠ 0 ∨ t.size ≠ 0

/-- The number of the export table. -/
def exportTable : Nat := 0

/-- The number of the import table. -/
def importTable : Nat := 1

/-- The number of the table for exceptions. -/
def exceptionTable : Nat := 3

/-- The number of the table of certificates. -/
def certificateTable : Nat := 4

/-- The number of the debug directory. -/
def debugTable : Nat := 6

end OptionalHeader

/-- The headers of an executable file. -/
structure Headers where
  /-- Where the file header lies. -/
  start : Nat
  /-- The machine that the code is for. -/
  machine : UInt16
  /-- The optional header. -/
  optional : Option OptionalHeader
  /-- The section table. -/
  sections : List SectionHeader
deriving Repr, DecidableEq

namespace Headers

/-- The headers of a file that starts with the right marks. -/
def read? (data : Bytes) : Option Headers := do
  let mark ← Bytes.word16? data 0
  if mark ≠ 0x5A4D then none
  else
    let start ← Bytes.word32? data 0x3C
    let start := start.toNat
    let mark ← Bytes.word32? data start
    if mark ≠ 0x00004550 ∨ data.length < 0x80 then none
    else
      let file ← FileHeader.read? data (start + 4)
      let offset := start + 4 + FileHeader.size
      let optional ← if file.optionalSize = 0 then some none else (OptionalHeader.read? data offset).map some
      let sections ← SectionHeader.readTable? data file (offset + file.optionalSize)
      return ⟨start, file.machine, optional, sections⟩

/-- The table of a number, if it is announced. -/
def table? (h : Headers) (n : Nat) : Option TableEntry := h.optional.bind (·.table? n)

/-- How addresses in the tables lead to a file with these headers. -/
def locator (h : Headers) (data : Bytes) : Locator :=
  ⟨data, h.sections, (h.optional.map (·.alignment)).getD 0, (h.optional.map (·.base)).getD 0⟩

/-- The machine whose table for exceptions is checked. -/
def unwindingMachine : UInt16 := 0x8664

/-- Whether the announced tables of which nothing is kept make sense. -/
def hasSoundTables (h : Headers) (data : Bytes) : Bool :=
  let locator := h.locator data
  (h.table? OptionalHeader.debugTable).all locator.hasDebugRecord
    && (h.machine != unwindingMachine || (h.table? OptionalHeader.exceptionTable).all locator.hasUnwindEntries)
    && (h.table? OptionalHeader.certificateTable).all (isCertificateTable data)

end Headers

/-! ## Images -/

/-- The section that a header describes, in an image at a base. -/
def SectionHeader.toSection (base : UInt32) (h : SectionHeader) : Section :=
  let s := Section.new (h.name.getD "") (base + h.virtualAddress) h.rawOffset h.rawSize h.flags
  if h.virtualSize = 0 then s else { s with virtualSize := h.virtualSize }

/-- The starts of functions in a table for exceptions, whose entries take eight bytes. -/
def functionStarts : Bytes → List UInt32
  | b0 :: b1 :: b2 :: b3 :: _ :: _ :: _ :: _ :: rest => Bytes.joinWord32 b0 b1 b2 b3 :: functionStarts rest
  | _ => []

namespace Image

/-- The functions that a table for exceptions lists, as far as the file has it. -/
def readRuntimeFunctions (image : Image) (table : TableEntry) : List Symbol :=
  if table.address = 0 ∨ table.size = 0 then []
  else
    match image.offsetOf (image.base + table.address) with
    | .error _ => []
    | .ok offset =>
      let starts := functionStarts ((image.data.drop offset.toNat).take table.size.toNat)
      (starts.filter (· ≠ 0)).map fun start => runtimeFunction (image.base + start)

/-- The image of a file by its headers, with its exports and imports. -/
def ofHeaders (data : Bytes) (headers : Headers) : Except ImageError Image :=
  let wide := (headers.optional.map (·.wide)).getD false
  let base := (headers.optional.map (·.base)).getD 0
  let entry := (headers.optional.map (·.entry)).getD 0
  let locator := headers.locator data
  let exports := ((headers.table? OptionalHeader.exportTable).map locator.exports).getD []
  let imports := match headers.table? OptionalHeader.importTable with
    | none => some []
    | some table => locator.imports? (if wide then 8 else 4) table
  match imports with
  | none => .error .malformed
  | some imports =>
    if !headers.hasSoundTables data then .error .malformed
    else if wide then .error .wideAddresses
    else
      let image : Image :=
        { data, base, entry := base + entry, sections := headers.sections.map (·.toSection base), exports, imports,
          runtimeFunctions := [], checksumOffset := some (headers.start + 0x58) }
      .ok { image with
        runtimeFunctions := ((headers.table? OptionalHeader.exceptionTable).map image.readRuntimeFunctions).getD [] }

/-- The image of an executable file. -/
def parse (data : Bytes) : Except ImageError Image :=
  match Headers.read? data with
  | none => .error .malformed
  | some headers => ofHeaders data headers

end Image

end BinaryPatching
