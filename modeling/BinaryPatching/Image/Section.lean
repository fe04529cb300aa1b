import BinaryPatching.Text.Numeral

/-!
# `BinaryPatching.Image.Section` — sections and symbols of an image

A section maps a stretch of the file to a stretch of addresses. Only the bytes that are both in the file and in
memory are mapped; a virtual size of zero stands for the size in the file.

## Contents
- `Section`, `Section.new`: sections with the flags that matter here.
- `Section.mappedSize`, `Section.containsAddress`, `Section.containsOffset`: what a section maps.
- `Section.line`: a section as a line.
- `Symbol`: a named address.
-/

namespace BinaryPatching

open Text

namespace Section

/-- Machine code. -/
def codeFlag : UInt32 := 0x00000020

/-- Data with contents. -/
def dataFlag : UInt32 := 0x00000040

/-- Data without contents. -/
def blankFlag : UInt32 := 0x00000080

/-- Memory that may be thrown away. -/
def discardableFlag : UInt32 := 0x02000000

/-- Memory that is shared. -/
def sharedFlag : UInt32 := 0x10000000

/-- Memory that may be executed. -/
def executableFlag : UInt32 := 0x20000000

/-- Memory that may be read. -/
def readableFlag : UInt32 := 0x40000000

/-- Memory that may be written. -/
def writableFlag : UInt32 := 0x80000000

/-- The flags that a section keeps. -/
def knownFlags : UInt32 :=
  codeFlag ||| dataFlag ||| blankFlag ||| discardableFlag ||| sharedFlag ||| executableFlag ||| readableFlag
    ||| writableFlag

end Section

/-- A section: a stretch of the file and where it lies in memory. -/
structure Section where
  /-- The name. -/
  name : String
  /-- The first address. -/
  address : UInt32
  /-- The size in memory; zero for the size in the file. -/
  virtualSize : UInt32
  /-- The offset in the file. -/
  rawOffset : UInt32
  /-- The size in the file. -/
  rawSize : UInt32
  /-- The flags. -/
  flags : UInt32
deriving Repr, DecidableEq

namespace Section

/-- A section that is as large in memory as in the file. Flags without a meaning here are dropped. -/
def new (name : String) (address rawOffset rawSize flags : UInt32) : Section :=
  ⟨name, address, rawSize, rawOffset, rawSize, flags &&& knownFlags⟩

/-- Whether the section holds code. -/
def isCode (s : Section) : Bool := s.flags &&& (codeFlag ||| executableFlag) ≠ 0

/-- The number of bytes that are both in the file and in memory. -/
def mappedSize (s : Section) : UInt32 :=
  if s.virtualSize = 0 then s.rawSize else if s.virtualSize ≤ s.rawSize then s.virtualSize else s.rawSize

/-- The address behind the mapped bytes; addresses wrap around. -/
def stop (s : Section) : UInt32 := s.address + s.mappedSize

/-- Whether an address lies in the mapped part of the section. -/
def containsAddress (s : Section) (address : UInt32) : Bool := s.address ≤ address && address < s.stop

/-- Whether a file offset lies in the mapped part of the section. -/
def containsOffset (s : Section) (offset : UInt32) : Bool :=
  s.rawOffset ≤ offset && offset < s.rawOffset + s.mappedSize

/-- A section as a line. -/
def line (s : Section) : String :=
  onChars (·.rightpad 8 ' ') s.name ++ " va=0x" ++ hex8 s.address ++ " size=0x" ++ upperHex s.mappedSize.toNat
    ++ " raw=0x" ++ upperHex s.rawOffset.toNat ++ (if s.isCode then " code" else "")

end Section

/-- A name for an address. -/
structure Symbol where
  /-- The name. -/
  name : String
  /-- The address. -/
  address : UInt32
deriving Repr, DecidableEq

end BinaryPatching
