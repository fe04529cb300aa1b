import BinaryPatching.Proofs.Patch.Materialize
import BinaryPatching.Script.Session

/-!
# `BinaryPatching.Proofs.Script.WorkingCopy` — working copies and the patches made from them

The log of an open file tells how its working copy came about: the writes, one after the other, lead from the file
as it was to the copy as it is. Whoever applies the patches of the record does something else, for those are one for
each offset and go in by ascending offset. Both come to the same if and only if at every position the latest write
and the highest one put the same byte.

## Contents
- `replay`: writes carried out, and `getElem?_replay`: the byte that is then at a position.
- `OpenFile.Recorded`: what holds of every open file, from its opening through all writes.
- `PatchLog.Agrees`, `PatchLog.agrees_of_ascending`: when the latest write is as good as the highest.
- `OpenFile.Recorded.apply_fill`: what the record of an open file makes of the file as it was.
- `OpenFile.apply_fill_writeEach`: when that is the working copy.
-/

namespace BinaryPatching

open PatchLog

/-! ## Writes carried out -/

/-- The data after some writes. -/
def replay (data : Bytes) (writes : List Write) : Bytes :=
  writes.foldl (fun data w => Bytes.overwrite data w.offset.toNat w.written) data

theorem replay_concat (data : Bytes) (writes : List Write) (w : Write) :
    replay data (writes ++ [w]) = Bytes.overwrite (replay data writes) w.offset.toNat w.written := by
  simp [replay]

/-- Writes inside the data leave it as long as it was. -/
theorem length_replay {data : Bytes} {writes : List Write}
    (h : ∀ w ∈ writes, w.offset.toNat + w.written.length ≤ data.length) :
    (replay data writes).length = data.length := by
  induction writes using List.reverseRecOn with
  | nil => rfl
  | append_singleton rest w ih =>
    have hrest := ih fun v hv => h v (List.mem_append_left _ hv)
    have hw := h w (List.mem_append_right _ (List.mem_singleton_self w))
    rw [replay_concat, Bytes.length_overwrite (by rw [hrest]; exact hw), hrest]

/-- **After some writes** a position holds the byte of the last write that covers it. -/
theorem getElem?_replay {data : Bytes} {writes : List Write}
    (h : ∀ w ∈ writes, w.offset.toNat + w.written.length ≤ data.length) (x : Nat) :
    (replay data writes)[x]? = ((latest? ⟨writes⟩ x).bind (·.byteAt? x)).or data[x]? := by
  induction writes using List.reverseRecOn with
  | nil => rfl
  | append_singleton rest w ih =>
    have hin : ∀ v ∈ rest, v.offset.toNat + v.written.length ≤ data.length :=
      fun v hv => h v (List.mem_append_left _ hv)
    have hw := h w (List.mem_append_right _ (List.mem_singleton_self w))
    rw [replay_concat, Bytes.getElem?_overwrite (by rw [length_replay hin]; exact hw), ih hin]
    unfold latest?
    rw [covering_concat]
    show (w.byteAt? x).or _ = _
    cases hb : w.byteAt? x with
    | none =>
      have hc : w.covers x = false := by rw [Write.covers, hb]; rfl
      rw [hc, if_neg Bool.false_ne_true, List.append_nil, Option.none_or]
    | some b =>
      have hc : w.covers x = true := by rw [Write.covers, hb]; rfl
      rw [hc, if_pos rfl, List.getLast?_concat, Option.bind_some, hb]
      rfl

namespace OpenFile

/-! ## Open files and their logs -/

/-- **What holds of every open file.** Its working copy is the file as it was after the writes of its log, each of
    which lies inside the file and puts as many bytes as it replaced. -/
structure Recorded (f : OpenFile) : Prop where
  /-- The writes lead to the working copy. -/
  data_eq : f.data = replay f.image.data f.log.writes
  /-- They lie inside the file. -/
  inside : ∀ w ∈ f.log.writes, w.offset.toNat + w.written.length ≤ f.image.data.length
  /-- They change no size. -/
  length_replaced : ∀ w ∈ f.log.writes, w.replaced.length = w.written.length
  /-- The digest is that of the file as it was. -/
  unpatchedHash_eq : f.unpatchedHash = Bytes.sha1 f.image.data

theorem recorded_start (name path : String) (image : Image) (code : CodeMap) :
    (start name path image code).Recorded where
  data_eq := rfl
  inside := by intro w hw; cases hw
  length_replaced := by intro w hw; cases hw
  unpatchedHash_eq := rfl

/-- The working copy is as long as the file. -/
theorem Recorded.length_data {f : OpenFile} (hf : f.Recorded) : f.data.length = f.image.data.length := by
  rw [hf.data_eq, length_replay hf.inside]

/-- A write keeps the log true, whether it succeeds or not. -/
theorem Recorded.writeOffset {f : OpenFile} (hf : f.Recorded) (offset : UInt32) (bytes : Bytes) :
    (f.writeOffset offset bytes).2.Recorded := by
  rcases f.writeOffset_cases offset bytes with ⟨replaced, hslice, hwrite⟩ | ⟨-, hwrite⟩ <;> rw [hwrite]
  case inr => exact hf
  refine ⟨?_, ?_, ?_, hf.unpatchedHash_eq⟩
  · show Bytes.overwrite f.data offset.toNat bytes = replay f.image.data (f.log.writes ++ [⟨offset, replaced, bytes⟩])
    rw [replay_concat, ← hf.data_eq]
  · intro v hv
    rcases List.mem_append.1 hv with hv | hv
    · exact hf.inside v hv
    · rw [List.mem_singleton.1 hv]
      exact hf.length_data ▸ (Bytes.slice?_eq_some.1 hslice).1
  · intro v hv
    rcases List.mem_append.1 hv with hv | hv
    · exact hf.length_replaced v hv
    · rw [List.mem_singleton.1 hv]
      exact Bytes.length_of_slice? hslice

/-- The file after some writes, whether they succeed or not. -/
def writeEach (f : OpenFile) : List (UInt32 × Bytes) → OpenFile
  | [] => f
  | (offset, bytes) :: rest => (f.writeOffset offset bytes).2.writeEach rest

theorem Recorded.writeEach {f : OpenFile} (hf : f.Recorded) (calls : List (UInt32 × Bytes)) :
    (f.writeEach calls).Recorded := by
  induction calls generalizing f with
  | nil => exact hf
  | cons call rest ih => exact ih (hf.writeOffset call.1 call.2)

theorem image_writeEach (f : OpenFile) (calls : List (UInt32 × Bytes)) : (f.writeEach calls).image = f.image := by
  induction calls generalizing f with
  | nil => rfl
  | cons call rest ih => exact ih (f.writeOffset call.1 call.2).2

/-- The byte at a position of the working copy. -/
theorem Recorded.getElem?_data {f : OpenFile} (hf : f.Recorded) (x : Nat) :
    f.data[x]? = ((f.log.latest? x).bind (·.byteAt? x)).or f.image.data[x]? := by
  rw [hf.data_eq]
  exact getElem?_replay hf.inside x

end OpenFile

/-! ## The record applied to the file as it was -/

/-- At every position the latest write and the highest one put the same byte. -/
def PatchLog.Agrees (log : PatchLog) : Prop :=
  ∀ x, (log.latest? x).bind (·.byteAt? x) = (log.highest? x).bind (·.byteAt? x)

/-- **Writes that climb agree**: wherever two of them overlap, the later one starts no lower. -/
theorem PatchLog.agrees_of_ascending {log : PatchLog}
    (h : log.writes.Pairwise fun v w => (∃ x, v.covers x ∧ w.covers x) → v.offset ≤ w.offset) : log.Agrees := by
  intro x
  suffices hs : log.latest? x = log.highest? x by rw [hs]
  unfold latest? highest?
  have hover : (covering log.writes x).Pairwise fun v w => v.offset ≤ w.offset := by
    refine (h.filter _).imp_of_mem fun {v w} hv hw hvw => ?_
    exact hvw ⟨x, (List.mem_filter.1 hv).2, (List.mem_filter.1 hw).2⟩
  rcases List.eq_nil_or_concat (covering log.writes x) with hnil | ⟨rest, w, hw⟩
  · rw [hnil]
    rfl
  · rw [List.concat_eq_append] at hw
    rw [hw] at hover ⊢
    have hle : ∀ v ∈ rest, v.offset ≤ w.offset :=
      fun v hv => (List.pairwise_append.1 hover).2.2 v hv w (List.mem_singleton_self w)
    rw [highestOf_concat_of_le hle, List.getLast?_concat]

/-- A position that some write covers has a latest byte and a highest one, any other has neither. -/
theorem PatchLog.byte_latest?_highest? (log : PatchLog) (x : Nat) :
    ((log.latest? x).bind (·.byteAt? x) = none ∧ (log.highest? x).bind (·.byteAt? x) = none)
      ∨ ∃ b c, (log.latest? x).bind (·.byteAt? x) = some b ∧ (log.highest? x).bind (·.byteAt? x) = some c := by
  have hbyte : ∀ w ∈ covering log.writes x, ∃ b, w.byteAt? x = some b := by
    intro w hw
    exact Option.isSome_iff_exists.1 (List.mem_filter.1 hw).2
  unfold latest? highest?
  cases hl : (covering log.writes x).getLast? with
  | none =>
    rw [List.getLast?_eq_none_iff.1 hl]
    exact .inl ⟨rfl, rfl⟩
  | some v =>
    have hv := List.mem_of_getLast? hl
    obtain ⟨w, hw⟩ := Option.ne_none_iff_exists'.1 (highestOf_ne_none (List.ne_nil_of_mem hv))
    obtain ⟨b, hb⟩ := hbyte v hv
    obtain ⟨c, hc⟩ := hbyte w (highestOf_eq_some hw).1
    rw [hw]
    exact .inr ⟨b, c, hb, hc⟩

namespace OpenFile

/-- **The record of an open file is always accepted** by the file as it was. It leaves at every position the byte of
    the highest write. -/
theorem Recorded.apply_fill {f : OpenFile} (hf : f.Recorded) (record : TargetFile) :
    ∃ data, (f.fill record).apply f.image.data = (.ok .patched, data)
      ∧ ∀ x, data[x]? = ((f.log.highest? x).bind (·.byteAt? x)).or f.image.data[x]? := by
  have hout : (f.fill record).outcome f.image.data = .patched := by
    show (if Bytes.sha1 f.image.data = f.unpatchedHash then Outcome.patched else _) = _
    rw [if_pos hf.unpatchedHash_eq.symm]
  obtain ⟨data, hdata, hx⟩ := TargetFile.applyPatches_eq (stop_materialize_le hf.inside)
  refine ⟨data, ?_, fun x => ?_⟩
  · have hpatches : TargetFile.applyPatches f.image.data (f.fill record).patches = (.ok (), data) := hdata
    unfold TargetFile.apply
    rw [hout]
    dsimp only
    rw [hpatches]
  · rw [hx x, topByte?_materialize]
    cases f.log.highest? x with
    | none => rfl
    | some w => cases hb : w.byteAt? x <;> simp [hb]

/-- **Authoring and application.** A file is written to at any offsets, any lengths and in any order. The record of it
    is accepted by the file as it was, and gives the working copy exactly if the log agrees. -/
theorem apply_fill_writeEach (name path : String) (image : Image) (code : CodeMap) (calls : List (UInt32 × Bytes))
    (record : TargetFile) :
    let f := (start name path image code).writeEach calls
    ∃ data, (f.fill record).apply image.data = (.ok .patched, data) ∧ (data = f.data ↔ f.log.Agrees) := by
  intro f
  have hf : f.Recorded := (recorded_start name path image code).writeEach calls
  have himage : f.image = image := image_writeEach _ calls
  obtain ⟨data, happly, hdata⟩ := hf.apply_fill record
  rw [himage] at happly
  refine ⟨data, happly, ?_⟩
  rw [List.ext_getElem?_iff]
  refine forall_congr' fun x => ?_
  rw [hdata x, hf.getElem?_data x]
  rcases PatchLog.byte_latest?_highest? f.log x with ⟨hl, hh⟩ | ⟨b, c, hl, hh⟩
  · rw [hl, hh]
    exact ⟨fun _ => rfl, fun _ => rfl⟩
  · rw [hl, hh, Option.some_or, Option.some_or]
    exact eq_comm

/-- **Not every record gives the working copy.** Two bytes are written at offset 1 and then two at offset 0: the second
    byte of the later write is lost, for the patch at offset 1 goes in behind it. -/
theorem exists_apply_fill_writeEach_ne :
    ¬∀ (name path : String) (image : Image) (code : CodeMap) (calls : List (UInt32 × Bytes)) (record : TargetFile),
      (((start name path image code).writeEach calls).fill record).apply image.data
        = (.ok .patched, ((start name path image code).writeEach calls).data) := by
  intro h
  have hbad := h "app.exe" "app.exe" (.blank [0, 0, 0, 0] 0) .empty [(1, [0xAA, 0xBB]), (0, [0xCC, 0xDD])]
    (.new "app.exe" [])
  have hf := (recorded_start "app.exe" "app.exe" (.blank [0, 0, 0, 0] 0) .empty).writeEach
    [(1, [0xAA, 0xBB]), (0, [0xCC, 0xDD])]
  obtain ⟨data, happly, hdata⟩ := hf.apply_fill (.new "app.exe" [])
  have heq := congrArg Prod.snd (happly.symm.trans hbad)
  have hbyte := congrArg (fun d : Bytes => d[1]?) heq
  rw [show data[1]? = some 0xAA from (hdata 1).trans (by decide)] at hbyte
  exact absurd hbyte (by decide)

end OpenFile

end BinaryPatching
