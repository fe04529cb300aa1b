import BinaryPatching.Patch.Basic

/-!
# `BinaryPatching.Patch.Log` — the record of all writes to a file

Every write to a working copy is recorded with what it replaced. In the end there is one patch for every offset
written to: the latest bytes, against those before the first write. A shorter write keeps the tail of a longer
one before it.

## Contents
- `Write`, `PatchLog`: the record.
- `PatchLog.write`: a write to some data, and its record.
- `PatchLog.materialize`: the patches, by ascending offset.
-/

namespace BinaryPatching

/-- One write. -/
structure Write where
  /-- The file offset. -/
  offset : UInt32
  /-- The bytes that were there. -/
  replaced : Bytes
  /-- The bytes that were written. -/
  written : Bytes
deriving Repr, DecidableEq

/-- The writes to a file, first to last. -/
structure PatchLog where
  /-- The writes. -/
  writes : List Write
deriving Repr, DecidableEq

namespace PatchLog

/-- The record without writes. -/
def empty : PatchLog := ⟨[]⟩

/-- The number of writes. -/
def size (log : PatchLog) : Nat := log.writes.length

/-- What comes of writing bytes at an offset, which must lie inside the data: success or an error, and the record and
    the data afterwards in either case. -/
def write (log : PatchLog) (data : Bytes) (offset : UInt32) (bytes : Bytes) :
    Except PatchError Unit × PatchLog × Bytes :=
  match Bytes.slice? data offset.toNat bytes.length with
  | none => (.error (.outOfBounds offset bytes.length), log, data)
  | some replaced =>
    let log := ⟨log.writes ++ [⟨offset, replaced, bytes⟩]⟩
    let data := Bytes.overwrite data offset.toNat bytes
    (.ok (), log, data)

/-- The patch of a single write. -/
def patchOf (w : Write) : Patch := ⟨w.offset, w.replaced, w.written⟩

/-- A patch joined with a later write at its offset. -/
def extend (p : Patch) (w : Write) : Patch :=
  if p.patched.length ≤ w.written.length then
    { p with
      unpatched := p.unpatched ++ w.replaced.drop (min p.unpatched.length w.replaced.length)
      patched := w.written }
  else { p with patched := w.written ++ p.patched.drop w.written.length }

/-- The patches, ascending by offset, with one more write. -/
def absorb (w : Write) : List Patch → List Patch
  | [] => [patchOf w]
  | p :: rest =>
    if w.offset < p.address then patchOf w :: p :: rest
    else if w.offset = p.address then extend p w :: rest
    else p :: absorb w rest

/-- The patches that the writes come to. -/
def materialize (log : PatchLog) : List Patch := log.writes.foldl (fun patches w => absorb w patches) []

/-- **A write either is carried out and recorded**, when it lies inside the data, or it fails, and then record and data
    are what they were. -/
theorem write_cases (log : PatchLog) (data : Bytes) (offset : UInt32) (bytes : Bytes) :
    (∃ replaced, Bytes.slice? data offset.toNat bytes.length = some replaced ∧
      log.write data offset bytes
        = (.ok (), ⟨log.writes ++ [⟨offset, replaced, bytes⟩]⟩, Bytes.overwrite data offset.toNat bytes)) ∨
    Bytes.slice? data offset.toNat bytes.length = none ∧
      log.write data offset bytes = (.error (.outOfBounds offset bytes.length), log, data) := by
  unfold write
  cases Bytes.slice? data offset.toNat bytes.length with
  | some replaced => exact .inl ⟨replaced, rfl, rfl⟩
  | none => exact .inr ⟨rfl, rfl⟩

/-- A write leaves the data as long as it was. -/
theorem length_write (log : PatchLog) (data : Bytes) (offset : UInt32) (bytes : Bytes) :
    (log.write data offset bytes).2.2.length = data.length := by
  rcases log.write_cases data offset bytes with ⟨replaced, hslice, hwrite⟩ | ⟨-, hwrite⟩
  · rw [hwrite]
    exact Bytes.length_overwrite (Bytes.slice?_eq_some.1 hslice).1
  · rw [hwrite]

end PatchLog

end BinaryPatching
