import BinaryPatching.Proofs.Patch.Joining
import BinaryPatching.Proofs.Script.StoreValidity

/-!
# `BinaryPatching.Proofs.Script.Coverage` — patches that cover every change

Some data is written to at any offsets, any lengths and in any order, and writes that do not fit are refused. Whatever
the writes, the patches of the record can be filed: they ascend, there is one for every offset written to, as long as
the longest write there, and no byte has changed that none of them covers.

## Contents
- `PatchLog.writeEach`, `PatchLog.fits`: some writes, and those of them that succeed.
- `PatchLog.writes_writeEach`, `PatchLog.exists_traced`: the record of the writes.
- `PatchLog.Covers`, `PatchLog.covers_writeEach`: what the patches of the record are.
-/

namespace BinaryPatching

open PatchLog

namespace PatchLog

/-! ## Some writes to some data -/

/-- **The record and the data after some writes**, whether they succeed or not. -/
def writeEach (log : PatchLog) (data : Bytes) : List (UInt32 × Bytes) → PatchLog × Bytes
  | [] => (log, data)
  | (offset, bytes) :: rest =>
    let (_, log, data) := log.write data offset bytes
    log.writeEach data rest

/-- **A write fits** when it lies inside the data. -/
def fits (data : Bytes) (call : UInt32 × Bytes) : Bool := decide (call.1.toNat + call.2.length ≤ data.length)

/-- A write fits when there are bytes for it to replace. -/
theorem fits_eq (data : Bytes) (call : UInt32 × Bytes) :
    fits data call = (Bytes.slice? data call.1.toNat call.2.length).isSome := by
  unfold fits Bytes.slice?
  by_cases h : call.1.toNat + call.2.length ≤ data.length
  · rw [if_pos h, decide_eq_true h, Option.isSome_some]
  · rw [if_neg h, decide_eq_false h, Option.isSome_none]

/-- The writes of a record, by offset and bytes. -/
def calls (log : PatchLog) : List (UInt32 × Bytes) := log.writes.map fun w => (w.offset, w.written)

/-- **The writes that fit are recorded**, in order. -/
theorem calls_writeEach (log : PatchLog) (data : Bytes) (wanted : List (UInt32 × Bytes)) :
    (log.writeEach data wanted).1.calls = log.calls ++ wanted.filter (fits data) := by
  induction wanted generalizing log data with
  | nil => exact (List.append_nil _).symm
  | cons call rest ih =>
    -- The data keeps its length, so the same writes fit as before.
    have hsame : fits (log.write data call.1 call.2).2.2 = fits data := by
      funext other
      unfold fits
      rw [length_write]
    have hrest : ((log.write data call.1 call.2).2.1.writeEach (log.write data call.1 call.2).2.2 rest).1.calls
        = (log.write data call.1 call.2).2.1.calls ++ rest.filter (fits data) := by
      rw [ih, hsame]
    refine hrest.trans ?_
    have hfits := fits_eq data call
    rcases log.write_cases data call.1 call.2 with ⟨replaced, hslice, hwrite⟩ | ⟨hslice, hwrite⟩
    · rw [hslice, Option.isSome_some] at hfits
      rw [hwrite, List.filter_cons_of_pos hfits]
      unfold calls
      rw [List.map_append, List.append_assoc]
      rfl
    · rw [hslice, Option.isSome_none] at hfits
      rw [hwrite, List.filter_cons_of_neg (Bool.eq_false_iff.1 hfits)]

end PatchLog

/-- The log and the working copy of an open file after some writes. -/
theorem OpenFile.writeEach_eq (f : OpenFile) (wanted : List (UInt32 × Bytes)) :
    (f.writeEach wanted).log = (f.log.writeEach f.data wanted).1 ∧
      (f.writeEach wanted).data = (f.log.writeEach f.data wanted).2 := by
  induction wanted generalizing f with
  | nil => exact ⟨rfl, rfl⟩
  | cons call rest ih => exact ih (f.writeOffset call.1 call.2).2

/-- Writes keep the log of an open file true. -/
theorem OpenFile.Traced.writeEach {f : OpenFile} (hf : f.Traced) (wanted : List (UInt32 × Bytes)) :
    (f.writeEach wanted).Traced := by
  induction wanted generalizing f with
  | nil => exact hf
  | cons call rest ih => exact ih (hf.step (.write call.1 call.2))

/-- **Where the working copy of an open file has changed**, there is a patch. -/
theorem OpenFile.Recorded.exists_patch_of_changed {f : OpenFile} (hf : f.Recorded) {x : Nat}
    (hchanged : f.data[x]? ≠ f.image.data[x]?) : ∃ p ∈ f.log.materialize, p.address.toNat ≤ x ∧ x < p.stop := by
  rw [hf.getElem?_data] at hchanged
  cases hlatest : f.log.latest? x with
  | none =>
    rw [hlatest] at hchanged
    exact absurd rfl hchanged
  | some w =>
    -- The patch at the offset of the write reaches at least as far.
    obtain ⟨hw, hcovers⟩ := List.mem_filter.1 (List.mem_of_getLast? hlatest)
    obtain ⟨p, hp, haddress⟩ := exists_mem_of_write hw
    exact ⟨p, hp, (within_iff_of_mem hf.length_replaced hp).2 ⟨w, hw, Write.reaches_iff.2 ⟨haddress.symm, hcovers⟩⟩⟩

namespace PatchLog

/-- **The record of some writes** to some data is the log of a file that was opened with that data. -/
theorem exists_traced (data : Bytes) (wanted : List (UInt32 × Bytes)) :
    ∃ f : OpenFile, f.Traced ∧ f.image.data = data ∧ f.log = (empty.writeEach data wanted).1 ∧
      f.data = (empty.writeEach data wanted).2 := by
  have hstart := OpenFile.traced_start "" "" (.blank data 0) .empty
  obtain ⟨hlog, hdata⟩ := (OpenFile.start "" "" (.blank data 0) .empty).writeEach_eq wanted
  exact ⟨_, hstart.writeEach wanted, congrArg Image.data (OpenFile.image_writeEach _ wanted), hlog, hdata⟩

/-! ## What the patches of the record are -/

/-- **Some patches cover the changes** from some data to some other, when certain writes led from one to the other. -/
structure Covers (patches : List Patch) (data after : Bytes) (done : List (UInt32 × Bytes)) : Prop where
  /-- They ascend. -/
  ascending : patches.Pairwise fun p q => p.address < q.address
  /-- There is exactly one for the offset of every write. -/
  exists_unique : ∀ call ∈ done, ∃! p, p ∈ patches ∧ p.address = call.1
  /-- Each is as long as a write at its address. -/
  exists_longest : ∀ p ∈ patches, ∃ call ∈ done, call.1 = p.address ∧ call.2.length = p.size
  /-- No write at its address is longer. -/
  length_le : ∀ p ∈ patches, ∀ call ∈ done, call.1 = p.address → call.2.length ≤ p.size
  /-- Each has as many bytes for those before it as of its own. -/
  length_unpatched : ∀ p ∈ patches, p.unpatched.length = p.size
  /-- Each lies inside the data. -/
  inside : ∀ p ∈ patches, p.stop ≤ data.length
  /-- The data keeps its length. -/
  length_eq : after.length = data.length
  /-- Where it has changed, there is a patch. -/
  changed : ∀ x, after[x]? ≠ data[x]? → ∃ p ∈ patches, p.address.toNat ≤ x ∧ x < p.stop
  /-- A file with these patches has no faults. -/
  valid : ∀ file : TargetFile, { file with patches }.validate = .ok ()

/-- **The patches cover every change**, whatever is written to some data. -/
theorem covers_writeEach (data : Bytes) (wanted : List (UInt32 × Bytes)) :
    Covers (empty.writeEach data wanted).1.materialize data (empty.writeEach data wanted).2
      (wanted.filter (fits data)) := by
  obtain ⟨f, hf, himage, hlog, hdata⟩ := exists_traced data wanted
  have hcalls : f.log.calls = wanted.filter (fits data) := by
    rw [hlog, calls_writeEach]
    rfl
  rw [← hcalls, ← hlog, ← hdata, ← himage]
  have hjoins := fun p (hp : p ∈ f.log.materialize) => joins_of_mem hf.length_replaced hp
  refine ⟨ascending_materialize f.log, ?_, ?_, ?_, fun p hp => (hjoins p hp).length_unpatched,
    stop_materialize_le hf.inside, hf.length_data, fun _ => hf.exists_patch_of_changed, ?_⟩
  · intro call hcall
    obtain ⟨w, hw, rfl⟩ := List.mem_map.1 hcall
    exact existsUnique_of_write hw
  · intro p hp
    obtain ⟨w, hw, hlength⟩ := (hjoins p hp).exists_longest
    obtain ⟨hwrites, hoffset⟩ := mem_writesAt.1 hw
    exact ⟨_, List.mem_map_of_mem hwrites, hoffset, hlength⟩
  · intro p hp call hcall haddress
    obtain ⟨w, hw, rfl⟩ := List.mem_map.1 hcall
    exact (hjoins p hp).length_le w (mem_writesAt.2 ⟨hw, haddress⟩)
  · intro file
    -- The hash of the patched file plays no part in whether the record is valid.
    exact hf.toRecorded.validate_fill file

end PatchLog

end BinaryPatching
