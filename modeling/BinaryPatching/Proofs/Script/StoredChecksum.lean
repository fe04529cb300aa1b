import BinaryPatching.Proofs.Image.EndAroundCarry
import BinaryPatching.Proofs.Script.WorkingCopy
import BinaryPatching.Script.Execution

/-!
# `BinaryPatching.Proofs.Script.StoredChecksum` — the checksum that a file ends up with

The checksum goes into a field of the file that it is made of. As that field counts as zero, the checksum of the file
is still the same once it is there: the file holds its own checksum, and to store it once more changes neither the file
nor what is filed for it.

## Contents
- `Bytes.word32?_overwrite`: a word that was written is read back.
- `PatchLog.extend_of_prefix`, `PatchLog.absorb_absorb`: a write made twice counts once.
- `OpenFile.checksummed`: the file with its checksum stored, and the same once more.
- `ScriptRun.Checksummed`, `ScriptRun.perform_patchChecksum`: the command.
-/

namespace BinaryPatching

open Checksum

/-! ## Words of four bytes -/

namespace Bytes

/-- One more byte on top of a word. -/
theorem toNat_or_shiftLeft {low : UInt32} (high : UInt8) {k : Nat} (hk : k ≤ 24) (h : low.toNat < 2 ^ k) :
    (low ||| (high.toUInt32 <<< UInt32.ofNat k)).toNat = low.toNat + 2 ^ k * high.toNat := by
  have hhigh : high.toNat < 2 ^ 8 := high.toNat_lt
  have hpow : 2 ^ k * high.toNat < 2 ^ 32 := by
    calc 2 ^ k * high.toNat < 2 ^ k * 2 ^ 8 := Nat.mul_lt_mul_of_pos_left hhigh (Nat.two_pow_pos k)
      _ = 2 ^ (k + 8) := (Nat.pow_add 2 k 8).symm
      _ ≤ 2 ^ 32 := Nat.pow_le_pow_right (by omega) (by omega)
  have hshift : (high.toUInt32 <<< UInt32.ofNat k).toNat = high.toNat <<< k := by
    rw [UInt32.toNat_shiftLeft, UInt32.toNat_ofNat', UInt8.toNat_toUInt32, Nat.mod_eq_of_lt (a := k) (by omega),
      Nat.mod_eq_of_lt (a := k) (by omega), Nat.shiftLeft_eq, Nat.mul_comm]
    exact Nat.mod_eq_of_lt hpow
  rw [UInt32.toNat_or, hshift, Nat.or_comm, ← Nat.shiftLeft_add_eq_or_of_lt h, Nat.shiftLeft_eq]
  rw [Nat.mul_comm, Nat.add_comm]

theorem toNat_joinWord32 (b0 b1 b2 b3 : UInt8) :
    (joinWord32 b0 b1 b2 b3).toNat = b0.toNat + 2 ^ 8 * b1.toNat + 2 ^ 16 * b2.toNat + 2 ^ 24 * b3.toNat := by
  have h0 := b0.toNat_lt
  have h1 := b1.toNat_lt
  have h2 := b2.toNat_lt
  have hfirst : b0.toUInt32.toNat = b0.toNat := UInt8.toNat_toUInt32 b0
  have hsecond := toNat_or_shiftLeft b1 (k := 8) (by omega) (show b0.toUInt32.toNat < 2 ^ 8 by omega)
  rw [hfirst] at hsecond
  have hthird := toNat_or_shiftLeft b2 (k := 16) (by omega) (lt_of_eq_of_lt hsecond (by omega))
  rw [hsecond] at hthird
  have hfourth := toNat_or_shiftLeft b3 (k := 24) (by omega) (lt_of_eq_of_lt hthird (by omega))
  rw [hthird] at hfourth
  exact hfourth

/-- A word is read back from its bytes. -/
theorem joinWord32_ofWord32 (w : UInt32) :
    joinWord32 w.toUInt8 (w >>> 8).toUInt8 (w >>> 16).toUInt8 (w >>> 24).toUInt8 = w := by
  have hw := w.toNat_lt
  apply UInt32.toNat_inj.1
  rw [toNat_joinWord32]
  simp only [UInt32.toNat_toUInt8, UInt32.toNat_shiftRight, Nat.shiftRight_eq_div_pow]
  show w.toNat % 2 ^ 8 + 2 ^ 8 * (w.toNat / 2 ^ 8 % 2 ^ 8) + 2 ^ 16 * (w.toNat / 2 ^ 16 % 2 ^ 8)
    + 2 ^ 24 * (w.toNat / 2 ^ 24 % 2 ^ 8) = w.toNat
  omega

/-- A word that was written is read back. -/
theorem word32?_overwrite {data : Bytes} {start : Nat} (w : UInt32) (h : start + 4 ≤ data.length) :
    word32? (overwrite data start (ofWord32 w)) start = some w := by
  have hstart : (data.take start).length = start := by
    rw [List.length_take]
    omega
  rw [word32?, overwrite, List.append_assoc, List.drop_left' hstart]
  show some (joinWord32 _ _ _ _) = some w
  rw [joinWord32_ofWord32]

end Bytes

/-! ## A write made twice -/

namespace PatchLog

variable {w v : Write} {p : Patch} {patches : List Patch}

/-- A patch that already shows a write stays as it is when it is joined with it. -/
theorem extend_of_prefix (hpatch : p.unpatched.length = p.patched.length) (hw : w.replaced.length = w.written.length)
    (h : w.written <+: p.patched) : extend p w = p := by
  obtain ⟨behind, hsplit⟩ := h
  unfold extend
  split
  · rename_i hle
    have hnil : behind = [] := by
      rw [← hsplit, List.length_append] at hle
      exact List.eq_nil_of_length_eq_zero (by omega)
    rw [hnil, List.append_nil] at hsplit
    have hdrop : w.replaced.drop (min p.unpatched.length w.replaced.length) = [] := by
      rw [List.drop_eq_nil_iff, hpatch, hw, hsplit]
      omega
    rw [hdrop, List.append_nil, hsplit]
  · have hrest : w.written ++ p.patched.drop w.written.length = p.patched := by
      rw [← hsplit, List.drop_left]
    rw [hrest]

/-- A patch that was joined with a write shows it. -/
theorem prefix_patched_extend (p : Patch) (w : Write) : w.written <+: (extend p w).patched := by
  unfold extend
  split
  · exact List.prefix_refl _
  · exact List.prefix_append _ _

/-- **A write made twice counts once**: the second time nothing is behind it that the first did not put there. -/
theorem absorb_absorb (hpatches : ∀ p ∈ patches, p.unpatched.length = p.patched.length)
    (hw : w.replaced.length = w.written.length) (hv : v.replaced.length = v.written.length)
    (hoffset : v.offset = w.offset) (hwritten : v.written = w.written) :
    absorb v (absorb w patches) = absorb w patches := by
  have hsingle : extend (patchOf w) v = patchOf w :=
    extend_of_prefix hw hv (hwritten ▸ List.prefix_refl v.written)
  induction patches with
  | nil =>
    have habsorb : absorb w [] = [patchOf w] := rfl
    rw [habsorb, absorb, hsingle]
    simp [patchOf, hoffset]
  | cons p rest ih =>
    by_cases hlt : w.offset < p.address
    · have habsorb : absorb w (p :: rest) = patchOf w :: p :: rest := by simp [absorb, hlt]
      rw [habsorb, absorb, hsingle]
      simp [patchOf, hoffset]
    by_cases heq : w.offset = p.address
    · have habsorb : absorb w (p :: rest) = extend p w :: rest := by simp [absorb, heq]
      have hlen : (extend p w).unpatched.length = (extend p w).patched.length :=
        length_unpatched_extend (hpatches p List.mem_cons_self) hw
      have hsame : extend (extend p w) v = extend p w :=
        extend_of_prefix hlen hv (hwritten ▸ prefix_patched_extend p w)
      rw [habsorb, absorb, hsame]
      simp [hoffset, heq]
    · have habsorb : absorb w (p :: rest) = p :: absorb w rest := by simp [absorb, hlt, heq]
      rw [habsorb, absorb, ih fun q hq => hpatches q (List.mem_cons_of_mem _ hq)]
      simp [hoffset, hlt, heq]

end PatchLog

/-! ## The command -/

namespace OpenFile

variable {f : OpenFile} {offset : Nat}

/-- The write that stores the checksum of a file in a field of it. -/
def checksumWrite (f : OpenFile) (offset : Nat) : Write :=
  ⟨UInt32.ofNat offset, (f.data.drop offset).take 4, Bytes.ofWord32 (checksum f.data offset)⟩

/-- The file with its checksum stored. -/
def checksummed (f : OpenFile) (offset : Nat) : OpenFile :=
  { f with
    log := ⟨f.log.writes ++ [f.checksumWrite offset]⟩
    data := Bytes.overwrite f.data offset (Bytes.ofWord32 (checksum f.data offset)) }

theorem writeOffset_checksum (hfits : offset + 4 ≤ f.data.length) (hlen : f.data.length < 2 ^ 32) :
    f.writeOffset (UInt32.ofNat offset) (Bytes.ofWord32 (checksum f.data offset))
      = (.ok (), f.checksummed offset) := by
  have hoffset : (UInt32.ofNat offset).toNat = offset := by
    rw [UInt32.toNat_ofNat', Nat.mod_eq_of_lt (by omega)]
  have hslice : Bytes.slice? f.data offset 4 = some ((f.data.drop offset).take 4) :=
    Bytes.slice?_eq_some.2 ⟨hfits, rfl⟩
  rw [writeOffset, PatchLog.write, hoffset, Bytes.length_ofWord32, hslice]
  rfl

theorem length_data_checksummed (hfits : offset + 4 ≤ f.data.length) :
    (f.checksummed offset).data.length = f.data.length :=
  Bytes.length_overwrite hfits

theorem length_checksumWrite (hfits : offset + 4 ≤ f.data.length) :
    (f.checksumWrite offset).replaced.length = (f.checksumWrite offset).written.length := by
  simp [checksumWrite]
  omega

/-- To store the checksum does not change it, for its field counts as zero. -/
theorem checksum_data_checksummed (hfits : offset + 4 ≤ f.data.length) :
    checksum (f.checksummed offset).data offset = checksum f.data offset :=
  checksum_overwrite_field rfl hfits

/-- **The file holds its own checksum.** -/
theorem word32?_data_checksummed (hfits : offset + 4 ≤ f.data.length) :
    Bytes.word32? (f.checksummed offset).data offset = some (checksum (f.checksummed offset).data offset) := by
  rw [checksum_data_checksummed hfits]
  exact Bytes.word32?_overwrite _ hfits

theorem getElem?_data_checksummed (hfits : offset + 4 ≤ f.data.length) {i : Nat} (hi : i < offset ∨ offset + 4 ≤ i) :
    (f.checksummed offset).data[i]? = f.data[i]? :=
  Bytes.getElem?_overwrite_outside hfits hi

/-- **The checksum stored once more** leaves the file as it is. -/
theorem data_checksummed_checksummed (hfits : offset + 4 ≤ f.data.length) :
    ((f.checksummed offset).checksummed offset).data = (f.checksummed offset).data := by
  apply List.ext_getElem?
  intro i
  have hfits' : offset + 4 ≤ (f.checksummed offset).data.length := by rwa [length_data_checksummed hfits]
  by_cases hi : i < offset ∨ offset + 4 ≤ i
  · exact getElem?_data_checksummed hfits' hi
  · -- In the field both have the bytes of the same checksum.
    have hin : i = offset + (i - offset) := by omega
    have hlt : i - offset < (Bytes.ofWord32 (checksum f.data offset)).length := by
      rw [Bytes.length_ofWord32]
      omega
    have hsame : ((f.checksummed offset).checksummed offset).data
        = Bytes.overwrite (f.checksummed offset).data offset (Bytes.ofWord32 (checksum f.data offset)) := by
      rw [← checksum_data_checksummed hfits]
      rfl
    rw [hsame, hin, Bytes.getElem?_overwrite_inside hfits' hlt]
    exact (Bytes.getElem?_overwrite_inside hfits hlt).symm

/-- **The checksum stored once more** adds nothing to what is filed. -/
theorem fill_checksummed_checksummed (hf : f.Recorded) (hfits : offset + 4 ≤ f.data.length) (record : TargetFile) :
    ((f.checksummed offset).checksummed offset).fill record = (f.checksummed offset).fill record := by
  have hfits' : offset + 4 ≤ (f.checksummed offset).data.length := by rwa [length_data_checksummed hfits]
  have hwritten : ((f.checksummed offset).checksumWrite offset).written = (f.checksumWrite offset).written := by
    simp only [checksumWrite, checksum_data_checksummed hfits]
  have hpatches : ((f.checksummed offset).checksummed offset).log.materialize
      = (f.checksummed offset).log.materialize := by
    show PatchLog.materialize ⟨_ ++ [_] ++ [_]⟩ = PatchLog.materialize ⟨_ ++ [_]⟩
    rw [PatchLog.materialize_concat, PatchLog.materialize_concat]
    exact PatchLog.absorb_absorb (PatchLog.length_unpatched_materialize hf.length_replaced)
      (length_checksumWrite hfits) (length_checksumWrite hfits') rfl hwritten
  rw [fill, fill, hpatches, data_checksummed_checksummed hfits]
  rfl

end OpenFile

/-- What the command does to the session. -/
theorem Session.patchChecksum_eq (s : Session) {f : OpenFile} {offset : Nat}
    (hoffset : f.image.checksumOffset = some offset) (hfits : offset + 4 ≤ f.data.length)
    (hlen : f.data.length < 2 ^ 32) :
    ∃ message, s.patchChecksum f
      = (.ok (), { s with file := some (f.checksummed offset), messages := message :: s.messages }) := by
  unfold patchChecksum
  rw [hoffset]
  dsimp only
  rw [OpenFile.writeOffset_checksum hfits hlen]
  exact ⟨_, rfl⟩

/-- **What storing the checksum does to a run.** The file holds its own checksum then, and nothing else has changed but
the log of the file and the messages. -/
structure ScriptRun.Checksummed (offset : Nat) (r : ScriptRun) (f : OpenFile) (r' : ScriptRun) (g : OpenFile) :
    Prop where
  /-- There is one more message, and the file is another one. -/
  run_eq : ∃ message, r' = { r with session :=
    { r.session with file := some g, messages := message :: r.session.messages } }
  /-- The other file differs in its working copy and in its log. -/
  file_eq : g = { f with log := g.log, data := g.data }
  /-- The word in the field is the checksum of the working copy as it is now. -/
  stored : Bytes.word32? g.data offset = some (checksum g.data offset)
  /-- The working copy is as long as it was. -/
  length_eq : g.data.length = f.data.length
  /-- Outside the field it is as it was. -/
  outside : ∀ i, i < offset ∨ offset + 4 ≤ i → g.data[i]? = f.data[i]?

theorem ScriptRun.exists_checksummed (config : Config) (script : Script) {r : ScriptRun} {f : OpenFile} {offset : Nat}
    (hfile : r.session.file = some f) (hoffset : f.image.checksumOffset = some offset)
    (hfits : offset + 4 ≤ f.data.length) (hlen : f.data.length < 2 ^ 32) :
    ∃ r', r.perform config script .patchChecksum = (.ok (), r') ∧
      Checksummed offset r f r' (f.checksummed offset) ∧ r'.session.file = some (f.checksummed offset) := by
  obtain ⟨message, hsession⟩ := r.session.patchChecksum_eq hoffset hfits hlen
  have hperform : r.perform config script .patchChecksum = r.update (r.session.patchChecksum f) := by
    show r.update (r.session.withFile _) = _
    rw [Session.withFile, hfile]
  rw [hperform, hsession]
  refine ⟨_, rfl, ?_, rfl⟩
  exact {
    run_eq := ⟨message, rfl⟩
    file_eq := rfl
    stored := OpenFile.word32?_data_checksummed hfits
    length_eq := OpenFile.length_data_checksummed hfits
    outside := fun i hi => OpenFile.getElem?_data_checksummed hfits hi }

/-- **Checksums.** The checksum of any file with the field inside is the sum of all halfwords with the field as zero,
folded to sixteen bits only at the end, plus the length. A run that stores the checksum of its file succeeds, and the
file then holds its own checksum. To do so once more succeeds again and changes the working copy no further, nor what is
filed for it. -/
theorem ScriptRun.perform_patchChecksum :
    (∀ (data : Bytes) (field : Nat), field + 4 ≤ data.length → data.length < 2 ^ 32 →
      (checksum data field).toNat
        = (endAround (halfwordSum (byteOutside data field) ((data.length + 1) / 2)) + data.length) % 2 ^ 32) ∧
    ∀ (config : Config) (script : Script) (r : ScriptRun) (f : OpenFile) (offset : Nat),
      r.session.file = some f → f.image.checksumOffset = some offset → offset + 4 ≤ f.data.length →
      f.data.length < 2 ^ 32 →
      ∃ r' g, r.perform config script .patchChecksum = (.ok (), r') ∧ Checksummed offset r f r' g ∧
        ∃ r'' h, r'.perform config script .patchChecksum = (.ok (), r'') ∧ Checksummed offset r' g r'' h ∧
          h.data = g.data ∧ (f.Recorded → ∀ record, h.fill record = g.fill record) := by
  refine ⟨fun data field _ _ => toNat_checksum data field, ?_⟩
  intro config script r f offset hfile hoffset hfits hlen
  have hsame := OpenFile.length_data_checksummed hfits
  have hfits' : offset + 4 ≤ (f.checksummed offset).data.length := by rwa [hsame]
  have hlen' : (f.checksummed offset).data.length < 2 ^ 32 := by rwa [hsame]
  obtain ⟨r', hfirst, hchecksummed, hfile'⟩ := exists_checksummed config script hfile hoffset hfits hlen
  obtain ⟨r'', hsecond, hchecksummed', -⟩ := exists_checksummed config script hfile' hoffset hfits' hlen'
  exact ⟨r', _, hfirst, hchecksummed, r'', _, hsecond, hchecksummed',
    OpenFile.data_checksummed_checksummed hfits, fun hf => OpenFile.fill_checksummed_checksummed hf hfits⟩

/-- A file of an odd length whose checksum field is at an odd offset. -/
def oddFile : OpenFile :=
  .start "a" "a" { Image.blank [0xFF, 0xFF, 0x02, 1, 2, 3, 4, 0xAB, 0x05] 0x1000 with checksumOffset := some 3 } .empty

/-- A run in which that file is open. -/
def oddRun : ScriptRun := ⟨{ Session.start .empty with file := some oddFile }, ⟨[], []⟩, .failing .notConfigured⟩

/-- There the field is not in line with the halfwords. -/
theorem ScriptRun.perform_patchChecksum_oddRun :
    (∃ r' g, oddRun.perform .standard ⟨[], []⟩ .patchChecksum = (.ok (), r') ∧ Checksummed 3 oddRun oddFile r' g ∧
      ∃ r'' h, r'.perform .standard ⟨[], []⟩ .patchChecksum = (.ok (), r'') ∧ Checksummed 3 r' g r'' h ∧
        h.data = g.data ∧ (oddFile.Recorded → ∀ record, h.fill record = g.fill record)) ∧
    (checksum oddFile.data 3).toNat = 0xAB07 + 9 := by
  refine ⟨ScriptRun.perform_patchChecksum.2 .standard ⟨[], []⟩ oddRun oddFile 3 rfl rfl (by decide) (by decide), ?_⟩
  rw [ScriptRun.perform_patchChecksum.1 oddFile.data 3 (by decide) (by decide)]
  decide +kernel

end BinaryPatching
