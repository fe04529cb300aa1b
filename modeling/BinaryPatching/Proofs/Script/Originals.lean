import BinaryPatching.Proofs.Script.Coverage

/-!
# `BinaryPatching.Proofs.Script.Originals` — the bytes that a patch expects

A patch says which bytes it replaces. They are meant to be those of the file as it was before any write, and each comes
from the first write at the address of the patch that reached so far. That write recorded what the working copy held at
its time, so a write at another offset that had been there before shows through. The patches are relative to the file as
it was exactly if no such write had changed a byte.

## Contents
- `PatchLog.ahead`: the writes before an offset is first written to as far as a position.
- `OpenFile.Traced.getElem?_unpatched`: the byte before a patch is the one that those writes left.
- `PatchLog.Restores`, `PatchLog.restores_of_aligned`: when those writes had changed nothing.
- `PatchLog.unpatched_materialize`: when the bytes before the patches are those of the file as it was.
- `PatchLog.exists_unpatched_ne`: two writes that overlap.
-/

namespace BinaryPatching

open PatchLog

/-! ## Stretches byte by byte -/

/-- Bytes are those of a stretch when each is the one at its position. -/
theorem Bytes.slice?_eq_some_iff_getElem? {data bytes : Bytes} {start : Nat} (h : start + bytes.length ≤ data.length) :
    Bytes.slice? data start bytes.length = some bytes ↔
      ∀ x, start ≤ x → x < start + bytes.length → bytes[x - start]? = data[x]? := by
  rw [Bytes.slice?_eq_some, and_iff_right h, List.ext_getElem?_iff]
  constructor
  · intro heq x hle hlt
    rw [heq, List.getElem?_take_of_lt (by omega), List.getElem?_drop, Nat.add_sub_of_le hle]
  · intro hall i
    rcases Nat.lt_or_ge i bytes.length with hlt | hge
    · have hi := hall (start + i) (Nat.le_add_right _ _) (Nat.add_lt_add_left hlt _)
      rw [Nat.add_sub_cancel_left] at hi
      rw [hi, List.getElem?_take_of_lt hlt, List.getElem?_drop]
    · rw [List.getElem?_eq_none hge, List.getElem?_eq_none (Nat.le_trans (List.length_take_le _ _) hge)]

/-! ## The writes ahead of a patch -/

namespace PatchLog

/-- **The writes ahead**: those before the first one that starts at an offset and covers a position. -/
def ahead (writes : List Write) (offset : UInt32) (x : Nat) : List Write :=
  writes.takeWhile fun w => !w.reaches offset x

/-- **The first write that reaches a position** comes right behind the writes ahead. -/
theorem eq_ahead_append_of_find? {writes : List Write} {offset : UInt32} {x : Nat} {w : Write}
    (h : writes.find? (·.reaches offset x) = some w) : ∃ after, writes = ahead writes offset x ++ w :: after := by
  obtain ⟨hw, before, after, rfl, hbefore⟩ := List.find?_eq_some_iff_append.1 h
  refine ⟨after, ?_⟩
  rw [ahead, List.takeWhile_append_of_pos hbefore, List.takeWhile_cons_of_neg, List.append_nil]
  rw [hw]
  exact Bool.false_ne_true

/-- Of the writes at an offset, those that are long enough reach a position. -/
theorem find?_writesAt (writes : List Write) {offset : UInt32} {x : Nat} (hle : offset.toNat ≤ x) :
    (writesAt writes offset).find? (fun w => decide (x - offset.toNat < w.written.length))
      = writes.find? (·.reaches offset x) := by
  rw [writesAt, List.find?_filter]
  congr 1
  funext w
  rw [Bool.eq_iff_iff, decide_eq_true_iff, Write.reaches_iff, Write.covers_iff, beq_iff_eq, decide_eq_true_iff]
  constructor
  · rintro ⟨rfl, hlt⟩
    exact ⟨rfl, hle, by omega⟩
  · rintro ⟨rfl, _, hlt⟩
    exact ⟨rfl, by omega⟩

/-- A position of a patch has a first write that reaches it. -/
theorem exists_find?_reaches {log : PatchLog} (h : ∀ w ∈ log.writes, w.replaced.length = w.written.length)
    {p : Patch} (hp : p ∈ log.materialize) {x : Nat} (hle : p.address.toNat ≤ x) (hlt : x < p.stop) :
    ∃ w, log.writes.find? (·.reaches p.address x) = some w := by
  rw [← Option.isSome_iff_exists, List.find?_isSome]
  exact (within_iff_of_mem h hp).1 ⟨hle, hlt⟩

end PatchLog

/-- **The byte before a patch** is the one that the writes ahead left. -/
theorem OpenFile.Traced.getElem?_unpatched {f : OpenFile} (hf : f.Traced) {p : Patch} (hp : p ∈ f.log.materialize)
    {x : Nat} (hle : p.address.toNat ≤ x) (hlt : x < p.stop) :
    p.unpatched[x - p.address.toNat]? = (replay f.image.data (ahead f.log.writes p.address x))[x]? := by
  obtain ⟨w, hw⟩ := exists_find?_reaches hf.length_replaced hp hle hlt
  have hreaches := List.find?_some (p := fun w : Write => w.reaches p.address x) hw
  obtain ⟨hoffset, hcovers⟩ := Write.reaches_iff.1 hreaches
  rw [Write.covers_iff, hoffset] at hcovers
  obtain ⟨after, hsplit⟩ := eq_ahead_append_of_find? hw
  obtain ⟨_, hreplaced⟩ := Bytes.slice?_eq_some.1 (hf.replaced _ w after hsplit)
  rw [(joins_of_mem hf.length_replaced hp).unpatched_eq, find?_writesAt _ hle, hw, Option.bind_some, hreplaced,
    List.getElem?_take_of_lt (by omega), List.getElem?_drop, hoffset, Nat.add_sub_of_le hle]

namespace PatchLog

/-! ## Patches relative to the file as it was -/

/-- **The writes ahead had changed nothing**: wherever a write covers a position, what the writes ahead had last put
    there is what the data had there all along. -/
def Restores (log : PatchLog) (data : Bytes) : Prop :=
  ∀ w ∈ log.writes, ∀ x, w.covers x = true →
    ∀ v, latest? ⟨ahead log.writes w.offset x⟩ x = some v → v.byteAt? x = data[x]?

/-- **Writes that start together wherever they overlap** leave nothing ahead of one another. -/
theorem restores_of_aligned {log : PatchLog} (data : Bytes)
    (h : ∀ v ∈ log.writes, ∀ w ∈ log.writes, (∃ x, v.covers x = true ∧ w.covers x = true) → v.offset = w.offset) :
    log.Restores data := by
  intro w hw x hcovers v hv
  obtain ⟨hahead, hvcovers⟩ := List.mem_filter.1 (List.mem_of_getLast? hv)
  have hoffset := h v ((List.takeWhile_prefix _).subset hahead) w hw ⟨x, hvcovers, hcovers⟩
  -- Such a write would reach the position itself, and the writes ahead stop there.
  have hnot : (!v.reaches w.offset x) = true := List.all_eq_true.1 List.all_takeWhile v hahead
  rw [Write.reaches_iff.2 ⟨hoffset, hvcovers⟩] at hnot
  exact absurd hnot Bool.false_ne_true

/-- Some writes leave a byte as it was exactly if the last that covers it put the byte that was there. -/
theorem getElem?_replay_eq_iff {data : Bytes} {writes : List Write}
    (h : ∀ w ∈ writes, w.offset.toNat + w.written.length ≤ data.length) (x : Nat) :
    (replay data writes)[x]? = data[x]? ↔ ∀ v, latest? ⟨writes⟩ x = some v → v.byteAt? x = data[x]? := by
  rw [getElem?_replay h]
  cases hlatest : latest? ⟨writes⟩ x with
  | none => exact iff_of_true rfl fun v hv => by cases hv
  | some v =>
    obtain ⟨b, hb⟩ := Option.isSome_iff_exists.1 (List.mem_filter.1 (List.mem_of_getLast? hlatest)).2
    rw [Option.bind_some, hb, Option.some_or]
    constructor
    · rintro hsame u hu
      cases hu
      rw [hb, hsame]
    · intro hall
      rw [← hall v rfl, hb]

end PatchLog

namespace OpenFile

variable {f : OpenFile} {p : Patch}

/-- The byte before a patch is that of the file as it was if the last write ahead of it put that back. -/
theorem Traced.getElem?_unpatched_eq_iff (hf : f.Traced) (hp : p ∈ f.log.materialize) {x : Nat}
    (hle : p.address.toNat ≤ x) (hlt : x < p.stop) :
    p.unpatched[x - p.address.toNat]? = f.image.data[x]? ↔
      ∀ v, latest? ⟨ahead f.log.writes p.address x⟩ x = some v → v.byteAt? x = f.image.data[x]? := by
  rw [hf.getElem?_unpatched hp hle hlt]
  exact getElem?_replay_eq_iff (fun w hw => hf.inside w ((List.takeWhile_prefix _).subset hw)) x

/-- A patch expects the file as it was if it does so byte by byte. -/
theorem Recorded.slice?_eq_unpatched_iff (hf : f.Recorded) (hp : p ∈ f.log.materialize) :
    Bytes.slice? f.image.data p.address.toNat p.size = some p.unpatched ↔
      ∀ x, p.address.toNat ≤ x → x < p.stop → p.unpatched[x - p.address.toNat]? = f.image.data[x]? := by
  have hlength := (joins_of_mem hf.length_replaced hp).length_unpatched
  have hinside := stop_materialize_le hf.inside p hp
  unfold Patch.stop at hinside ⊢
  rw [← hlength] at hinside ⊢
  exact Bytes.slice?_eq_some_iff_getElem? hinside

/-- **The patches of an open file** expect the file as it was exactly if the writes ahead had changed nothing. -/
theorem Traced.unpatched_iff_restores (hf : f.Traced) :
    (∀ p ∈ f.log.materialize, Bytes.slice? f.image.data p.address.toNat p.size = some p.unpatched) ↔
      f.log.Restores f.image.data := by
  constructor
  · intro h w hw x hcovers
    obtain ⟨p, hp, haddress⟩ := exists_mem_of_write hw
    obtain ⟨hle, hlt⟩ :=
      (within_iff_of_mem hf.length_replaced hp).2 ⟨w, hw, Write.reaches_iff.2 ⟨haddress.symm, hcovers⟩⟩
    rw [← haddress]
    exact (hf.getElem?_unpatched_eq_iff hp hle hlt).1 ((hf.slice?_eq_unpatched_iff hp).1 (h p hp) x hle hlt)
  · intro h p hp
    refine (hf.slice?_eq_unpatched_iff hp).2 fun x hle hlt => (hf.getElem?_unpatched_eq_iff hp hle hlt).2 ?_
    -- Some write at the address covers the position, and the writes ahead of the patch are those ahead of it.
    obtain ⟨w, hw, hreaches⟩ := (within_iff_of_mem hf.length_replaced hp).1 ⟨hle, hlt⟩
    obtain ⟨hoffset, hcovers⟩ := Write.reaches_iff.1 hreaches
    rw [← hoffset]
    exact h w hw x hcovers

end OpenFile

namespace PatchLog

/-- **What the patches of a record expect**, whatever is written to some data. The byte before a patch is the one that
    the writes ahead left, and all patches expect what the data had before any write exactly if those writes had changed
    nothing. -/
theorem unpatched_materialize (data : Bytes) (wanted : List (UInt32 × Bytes)) :
    let log := (empty.writeEach data wanted).1
    (∀ p ∈ log.materialize, ∀ x, p.address.toNat ≤ x → x < p.stop →
      p.unpatched[x - p.address.toNat]? = (replay data (ahead log.writes p.address x))[x]?) ∧
    ((∀ p ∈ log.materialize, Bytes.slice? data p.address.toNat p.size = some p.unpatched) ↔ log.Restores data) := by
  obtain ⟨f, hf, rfl, hlog, _⟩ := exists_traced data wanted
  rw [← hlog]
  exact ⟨fun p hp x => hf.getElem?_unpatched hp, hf.unpatched_iff_restores⟩

/-- **Not every patch expects the file as it was.** Two bytes are written at offset 0 and then two at offset 1: the
    patch at offset 1 expects the second byte of the earlier write. -/
theorem exists_unpatched_ne :
    ¬∀ (data : Bytes) (wanted : List (UInt32 × Bytes)), ∀ p ∈ (empty.writeEach data wanted).1.materialize,
      Bytes.slice? data p.address.toNat p.size = some p.unpatched := by
  intro h
  have hbad := h [0, 0, 0, 0] [(0, [0xAA, 0xBB]), (1, [0xCC, 0xDD])] ⟨1, [0xBB, 0], [0xCC, 0xDD]⟩ (by decide)
  exact absurd hbad (by decide)

end PatchLog

end BinaryPatching
