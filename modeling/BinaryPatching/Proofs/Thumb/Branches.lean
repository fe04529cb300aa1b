import BinaryPatching.Proofs.Thumb.Targets
import BinaryPatching.Thumb.Encode

/-!
# `BinaryPatching.Proofs.Thumb.Branches` — encoders and decoder of branches are inverse

The encoders of unconditional branches and the decoder are compared with a third thing, a relation that says which bytes
are the encodings of a displacement. Both agree with it, so each undoes the other.

## Contents
- `LongParts`: the parts of a long displacement, in a number and in two halfwords.
- `BranchForm`, `BranchForm.Encodes`: the encodings of each form, with their displacements.
- `exists_encodes_iff`, `reaches_of_conditional`: which displacements have encodings.
- `encode_eq_some_iff_encodes`, `encodes_of_decode`: the encoders and the decoder.
- `encode_eq_some_iff`: both together.
-/

namespace BinaryPatching.Thumb

open Text

/-! ## Encodings -/

/-- The parts of a long displacement: its sign, two bits that are stored as equal to the sign or not, and the rest. -/
structure LongParts where
  /-- The sign. -/
  sign : Fin 2
  /-- The bit behind the sign. -/
  first : Fin 2
  /-- The bit behind that. -/
  second : Fin 2
  /-- The rest in the first halfword. -/
  high : Fin 1024
  /-- The rest in the second halfword. -/
  low : Fin 2048

namespace LongParts

/-- The number that the parts make up. -/
def value (p : LongParts) : Nat :=
  p.sign * 0x1000000 + p.first * 0x800000 + p.second * 0x400000 + p.high * 0x1000 + p.low * 2

/-- The first halfword that holds the parts. -/
def firstHalf (p : LongParts) : Nat := 0xF000 + p.sign * 0x400 + p.high

/-- The second halfword that holds the parts, beside the bits `kind`. -/
def secondHalf (kind : Nat) (p : LongParts) : Nat :=
  kind + sameAsSign p.first p.sign * 0x2000 + sameAsSign p.second p.sign * 0x800 + p.low

theorem value_lt (p : LongParts) : p.value < 0x2000000 := by
  unfold value
  omega

/-- Storing a bit as equal to the sign or not is undone by doing it again. -/
theorem sameAsSign_sameAsSign (bit sign : Fin 2) : sameAsSign (sameAsSign bit sign) sign = bit := by
  revert bit sign
  decide

/-- Every even number of 25 bits has parts. -/
theorem exists_value {v : Nat} (hlt : v < 0x2000000) (heven : v % 2 = 0) : ∃ p : LongParts, p.value = v := by
  refine ⟨⟨⟨v / 0x1000000 % 2, by omega⟩, ⟨v / 0x800000 % 2, by omega⟩, ⟨v / 0x400000 % 2, by omega⟩,
    ⟨v / 0x1000 % 1024, by omega⟩, ⟨v / 2 % 2048, by omega⟩⟩, ?_⟩
  show v / 0x1000000 % 2 * 0x1000000 + v / 0x800000 % 2 * 0x800000 + v / 0x400000 % 2 * 0x400000
    + v / 0x1000 % 1024 * 0x1000 + v / 2 % 2048 * 2 = v
  omega

/-- The bits of the number are its parts. -/
theorem field_value (p : LongParts) :
    field p.value 24 1 = p.sign ∧ field p.value 23 1 = p.first ∧ field p.value 22 1 = p.second
      ∧ field p.value 12 10 = p.high ∧ field p.value 1 11 = p.low := by
  simp only [field, value, Nat.shiftRight_eq_div_pow, Nat.shiftLeft_eq]
  omega

theorem field_firstHalf (p : LongParts) :
    field p.firstHalf 11 5 = 30 ∧ field p.firstHalf 10 1 = p.sign ∧ field p.firstHalf 0 10 = p.high := by
  simp only [field, firstHalf, Nat.shiftRight_eq_div_pow, Nat.shiftLeft_eq]
  omega

/-- The bits of the kind stay as they are beside the parts, and the parts as they were, if there is room for them. -/
theorem field_secondHalf_of_kind (p : LongParts) {kind : Nat} (hlow : field kind 0 12 = 0)
    (hfirst : field kind 13 1 = 0) :
    (∀ bit, bit = 12 ∨ bit = 14 ∨ bit = 15 → flag (p.secondHalf kind) bit = flag kind bit)
      ∧ field (p.secondHalf kind) 13 1 = sameAsSign p.first p.sign
      ∧ field (p.secondHalf kind) 11 1 = sameAsSign p.second p.sign
      ∧ field (p.secondHalf kind) 0 11 = p.low := by
  have hj1 := sameAsSign_le p.first p.sign
  have hj2 := sameAsSign_le p.second p.sign
  simp only [flag, field, secondHalf, Nat.shiftRight_eq_div_pow, Nat.shiftLeft_eq, decide_eq_decide] at *
  refine ⟨?_, by omega, by omega, by omega⟩
  rintro bit (rfl | rfl | rfl) <;> omega

/-- The kinds of long branches: jumps and calls. -/
def kindOf : Bool → Nat
  | true => 0xD000
  | false => 0x9000

theorem field_secondHalf (p : LongParts) (call : Bool) :
    flag (p.secondHalf (kindOf call)) 15 = true ∧ flag (p.secondHalf (kindOf call)) 14 = call
      ∧ flag (p.secondHalf (kindOf call)) 12 = true
      ∧ field (p.secondHalf (kindOf call)) 13 1 = sameAsSign p.first p.sign
      ∧ field (p.secondHalf (kindOf call)) 11 1 = sameAsSign p.second p.sign
      ∧ field (p.secondHalf (kindOf call)) 0 11 = p.low := by
  have hroom : field (kindOf call) 0 12 = 0 ∧ field (kindOf call) 13 1 = 0 := by
    cases call <;> decide
  obtain ⟨hbits, hparts⟩ := p.field_secondHalf_of_kind hroom.1 hroom.2
  rw [hbits 15 (by decide), hbits 14 (by decide), hbits 12 (by decide)]
  cases call <;> exact ⟨by decide, by decide, by decide, hparts⟩

theorem firstHalf_lt (p : LongParts) : p.firstHalf < 0x10000 := by
  unfold firstHalf
  omega

theorem secondHalf_lt (p : LongParts) (call : Bool) : p.secondHalf (kindOf call) < 0x10000 := by
  have hfirst := sameAsSign_le p.first p.sign
  have hsecond := sameAsSign_le p.second p.sign
  unfold secondHalf
  cases call <;> dsimp only [kindOf] <;> omega

/-- The number is read back from the halfwords that hold the parts. -/
theorem longValue_of_kind (p : LongParts) {kind : Nat} (hlow : field kind 0 12 = 0) (hfirst : field kind 13 1 = 0) :
    longValue p.firstHalf (p.secondHalf kind) = p.value := by
  obtain ⟨_, hsign, hhigh⟩ := p.field_firstHalf
  obtain ⟨_, hfirst, hsecond, hlow⟩ := p.field_secondHalf_of_kind hlow hfirst
  simp only [longValue, hsign, hhigh, hfirst, hsecond, hlow, sameAsSign_sameAsSign, Nat.shiftLeft_eq]
  unfold value
  omega

theorem longValue_halves (p : LongParts) (call : Bool) :
    longValue p.firstHalf (p.secondHalf (kindOf call)) = p.value := by
  cases call <;> exact p.longValue_of_kind (by decide) (by decide)

/-- Halfwords that are those of a kind but for the parts hold parts. -/
theorem exists_halves_of_kind {hw1 hw2 kind : Nat} (hlt1 : hw1 < 0x10000) (hgroup : field hw1 11 5 = 30)
    (hkind : hw2 = kind + field hw2 13 1 * 0x2000 + field hw2 11 1 * 0x800 + field hw2 0 11) :
    ∃ p : LongParts, p.firstHalf = hw1 ∧ p.secondHalf kind = hw2 ∧ p.low.val = field hw2 0 11 := by
  let sign : Fin 2 := ⟨field hw1 10 1, field_lt hw1 10 1⟩
  let j1 : Fin 2 := ⟨field hw2 13 1, field_lt hw2 13 1⟩
  let j2 : Fin 2 := ⟨field hw2 11 1, field_lt hw2 11 1⟩
  have hj1 := sameAsSign_le j1 sign
  have hj2 := sameAsSign_le j2 sign
  refine ⟨⟨sign, ⟨sameAsSign j1 sign, by omega⟩, ⟨sameAsSign j2 sign, by omega⟩,
    ⟨field hw1 0 10, field_lt hw1 0 10⟩, ⟨field hw2 0 11, field_lt hw2 0 11⟩⟩, ?_, ?_, rfl⟩
  · show 0xF000 + field hw1 10 1 * 0x400 + field hw1 0 10 = hw1
    simp only [field, Nat.shiftRight_eq_div_pow, Nat.shiftLeft_eq] at hgroup ⊢
    omega
  · show kind + sameAsSign (sameAsSign j1 sign) sign * 0x2000 + sameAsSign (sameAsSign j2 sign) sign * 0x800
      + field hw2 0 11 = hw2
    rw [sameAsSign_sameAsSign, sameAsSign_sameAsSign]
    exact hkind.symm

/-- All halfwords of a long branch hold parts. -/
theorem exists_halves {hw1 hw2 : Nat} {call : Bool} (hlt1 : hw1 < 0x10000) (hlt2 : hw2 < 0x10000)
    (hgroup : field hw1 11 5 = 30) (h15 : flag hw2 15 = true) (h14 : flag hw2 14 = call) (h12 : flag hw2 12 = true) :
    ∃ p : LongParts, p.firstHalf = hw1 ∧ p.secondHalf (kindOf call) = hw2 := by
  have hkind : hw2 = kindOf call + field hw2 13 1 * 0x2000 + field hw2 11 1 * 0x800 + field hw2 0 11 := by
    simp only [flag, field, Nat.shiftRight_eq_div_pow, Nat.shiftLeft_eq] at *
    cases call <;> simp [kindOf] at * <;> omega
  obtain ⟨p, hfirst, hsecond, _⟩ := exists_halves_of_kind hlt1 hgroup hkind
  exact ⟨p, hfirst, hsecond⟩

end LongParts

/-- The forms of branches that are always taken. -/
inductive BranchForm where
  /-- A jump of two bytes. -/
  | short
  /-- A jump or a call of four bytes. -/
  | wide (call : Bool)
deriving Repr, DecidableEq

namespace BranchForm

/-- The mnemonic of a form. -/
def mnemonic : BranchForm → String
  | short => "b"
  | wide false => "b.w"
  | wide true => "bl"

/-- The number of bytes of a form. -/
def size : BranchForm → UInt32
  | short => 2
  | wide _ => 4

/-- The encoder of a form. -/
def encode : BranchForm → UInt32 → UInt32 → Option Bytes
  | short => encodeShortBranch
  | wide false => encodeLongBranch
  | wide true => encodeCall

/-- How far branches of a form reach. -/
def reach : BranchForm → Int
  | short => 0x800
  | wide _ => 0x1000000

/-- The displacements that a form has encodings for: even ones within its reach. -/
def Reaches (form : BranchForm) (d : Int) : Prop := d % 2 = 0 ∧ -form.reach ≤ d ∧ d < form.reach

/-- **The encodings of a form**, with their displacements. -/
inductive Encodes : BranchForm → Int → Bytes → Prop
  /-- A jump of two bytes, by the half of its displacement. -/
  | short (half : Fin 2048) :
    Encodes short (Int.bmod (2 * half : Nat) 0x1000) (Bytes.ofWord16 (UInt16.ofNat (0xE000 + half)))
  /-- A jump or a call of four bytes, by the parts of its displacement. -/
  | wide (call : Bool) (p : LongParts) :
    Encodes (wide call) (Int.bmod p.value 0x2000000)
      (Bytes.ofWord16 (UInt16.ofNat p.firstHalf)
        ++ Bytes.ofWord16 (UInt16.ofNat (p.secondHalf (LongParts.kindOf call))))

/-! ## Reach -/

/-- A number of either sign is found again from its remainder. -/
theorem bmod_toNat_emod {d half : Int} {m : Nat} (hm : (m : Int) = 2 * half) (hle : -half ≤ d) (hlt : d < half) :
    Int.bmod (d % m).toNat m = d := by
  rw [Int.toNat_of_nonneg (Int.emod_nonneg d (by omega)), Int.emod_bmod,
    Int.bmod_eq_of_le (by omega) (by omega)]

/-- A remainder is found again from the number of either sign that has it. -/
theorem toNat_bmod_emod {v m : Nat} (h : v < m) : (Int.bmod v m % m).toNat = v := by
  rw [Int.bmod_emod, ← Int.natCast_emod, Int.toNat_natCast, Nat.mod_eq_of_lt h]

/-- The signed numbers of even fields are even, and lie on both sides of zero. -/
theorem bmod_even {v m : Nat} {half : Int} (hm : (m : Int) = 2 * half) (hlt : v < m) (heven : v % 2 = 0) :
    Int.bmod v m % 2 = 0 ∧ -half ≤ Int.bmod v m ∧ Int.bmod v m < half := by
  have hpos : 0 < m := by omega
  have hle := Int.le_bmod (x := v) hpos
  have hlt' := Int.bmod_lt (x := v) hpos
  have hcases : Int.bmod v m = v ∨ Int.bmod v m = v - m := by
    rw [Int.bmod, Int.emod_eq_of_lt (by omega) (by omega)]
    split
    · exact .inl rfl
    · exact .inr rfl
  omega

theorem reaches_short (half : Fin 2048) : short.Reaches (Int.bmod (2 * half : Nat) 0x1000) :=
  bmod_even (show ((0x1000 : Nat) : Int) = 2 * 0x800 from rfl) (by omega) (by omega)

theorem reaches_wide (call : Bool) (p : LongParts) : (wide call).Reaches (Int.bmod p.value 0x2000000) := by
  have heven : p.value % 2 = 0 := by
    unfold LongParts.value
    omega
  exact bmod_even (show ((0x2000000 : Nat) : Int) = 2 * 0x1000000 from rfl) p.value_lt heven

theorem encodes_short {d : Int} (h : short.Reaches d) :
    Encodes short d (Bytes.ofWord16 (UInt16.ofNat (0xE000 + (d % 0x1000).toNat / 2))) := by
  obtain ⟨heven, hle, hlt⟩ := h
  have hhalf : (d % 0x1000).toNat / 2 < 2048 := by omega
  have htwice : 2 * ((d % 0x1000).toNat / 2) = (d % 0x1000).toNat := by omega
  have hd : Int.bmod (2 * ((d % 0x1000).toNat / 2) : Nat) 0x1000 = d := by
    rw [htwice]
    exact bmod_toNat_emod (show ((0x1000 : Nat) : Int) = 2 * 0x800 from rfl) hle hlt
  have hencodes := Encodes.short ⟨(d % 0x1000).toNat / 2, hhalf⟩
  rwa [hd] at hencodes

theorem exists_parts (call : Bool) {d : Int} (h : (wide call).Reaches d) :
    ∃ p : LongParts, (d % 0x2000000).toNat = p.value ∧ d = Int.bmod p.value 0x2000000 := by
  obtain ⟨heven, hle, hlt⟩ := h
  obtain ⟨p, hp⟩ := LongParts.exists_value (v := (d % 0x2000000).toNat) (by omega) (by omega)
  refine ⟨p, hp.symm, ?_⟩
  rw [hp]
  exact (bmod_toNat_emod (show ((0x2000000 : Nat) : Int) = 2 * 0x1000000 from rfl) hle hlt).symm

/-- **Encodings exist** for all displacements within reach, and for no others. -/
theorem exists_encodes_iff {form : BranchForm} {d : Int} : (∃ bytes, form.Encodes d bytes) ↔ form.Reaches d := by
  constructor
  · rintro ⟨bytes, h⟩
    cases h with
    | short half => exact reaches_short half
    | wide call p => exact reaches_wide call p
  · intro h
    cases form with
    | short => exact ⟨_, encodes_short h⟩
    | wide call =>
      obtain ⟨p, _, hd⟩ := exists_parts call h
      exact ⟨_, hd ▸ Encodes.wide call p⟩

/-! ## The encoder -/

theorem encodeShortBranch_eq_some_iff {source target : UInt32} {bytes : Bytes} :
    encodeShortBranch source target = some bytes ↔ Encodes short (branchDistance source target) bytes := by
  unfold encodeShortBranch
  dsimp only
  generalize branchDistance source target = d
  constructor
  · intro h
    split at h
    · rename_i hreach
      cases h
      exact encodes_short ⟨hreach.1, hreach.2.1, show d < 0x800 by omega⟩
    · cases h
  · intro h
    obtain ⟨heven, hle, hlt⟩ := exists_encodes_iff.1 ⟨bytes, h⟩
    have hbound : d < 0x800 := hlt
    cases h with
    | short half =>
      have hback : (Int.bmod (2 * half : Nat) 0x1000 % 4096).toNat = 2 * half :=
        toNat_bmod_emod (m := 0x1000) (by omega)
      rw [if_pos ⟨heven, hle, by omega⟩, hback, Nat.mul_div_cancel_left _ (by decide)]

/-- The halfwords that the encoder makes are those of the parts of its value. -/
theorem halves_value (p : LongParts) (kind : Nat) :
    0xF000 + field p.value 24 1 <<< 10 + field p.value 12 10 = p.firstHalf ∧
      kind + (if field p.value 23 1 = field p.value 24 1 then 0x2000 else 0)
        + (if field p.value 22 1 = field p.value 24 1 then 0x800 else 0) + field p.value 1 11 = p.secondHalf kind := by
  obtain ⟨hsign, hfirst, hsecond, hhigh, hlow⟩ := p.field_value
  rw [hsign, hfirst, hsecond, hhigh, hlow, Nat.shiftLeft_eq]
  refine ⟨rfl, ?_⟩
  unfold LongParts.secondHalf sameAsSign
  split <;> split <;> omega

theorem encodeLong_eq_some_iff (call : Bool) {source target : UInt32} {bytes : Bytes} :
    encodeLong (LongParts.kindOf call) source target = some bytes ↔
      Encodes (wide call) (branchDistance source target) bytes := by
  unfold encodeLong
  dsimp only
  generalize branchDistance source target = d
  constructor
  · intro h
    split at h
    · rename_i hreach
      cases h
      obtain ⟨p, hvalue, hd⟩ := exists_parts call hreach
      obtain ⟨hfirst, hsecond⟩ := halves_value p (LongParts.kindOf call)
      rw [hvalue, hfirst, hsecond]
      exact hd ▸ Encodes.wide call p
    · cases h
  · intro h
    obtain ⟨heven, hle, hlt⟩ := exists_encodes_iff.1 ⟨bytes, h⟩
    rw [if_pos ⟨heven, hle, hlt⟩]
    cases h with
    | wide _ p =>
      have hvalue : (Int.bmod p.value 0x2000000 % 0x2000000).toNat = p.value :=
        toNat_bmod_emod (m := 0x2000000) p.value_lt
      obtain ⟨hfirst, hsecond⟩ := halves_value p (LongParts.kindOf call)
      rw [hvalue, hfirst, hsecond]

/-- **The encoder of a form** finds the encoding of a distance, whenever there is one. -/
theorem encode_eq_some_iff_encodes {form : BranchForm} {source target : UInt32} {bytes : Bytes} :
    form.encode source target = some bytes ↔ form.Encodes (branchDistance source target) bytes := by
  cases form with
  | short => exact encodeShortBranch_eq_some_iff
  | wide call =>
    cases call with
    | false => exact encodeLong_eq_some_iff false
    | true => exact encodeLong_eq_some_iff true

theorem decode_ofWord16 {hw : UInt16} (h : isWide hw.toNat = false) (rest : Bytes) (address : UInt32) :
    decode (Bytes.ofWord16 hw ++ rest) address
      = (decodeShort hw.toNat address).map (·.toInstruction address (Bytes.ofWord16 hw)) := by
  show decode (hw.toUInt8 :: (hw >>> 8).toUInt8 :: rest) address = _
  unfold decode
  dsimp only
  rw [Bytes.joinWord16_ofWord16, h, if_neg Bool.false_ne_true]
  rfl

theorem decode_ofWord16_append {hw1 hw2 : UInt16} (h : isWide hw1.toNat = true) (rest : Bytes) (address : UInt32) :
    decode (Bytes.ofWord16 hw1 ++ Bytes.ofWord16 hw2 ++ rest) address
      = (decodeWide hw1.toNat hw2.toNat address).map
        (·.toInstruction address (Bytes.ofWord16 hw1 ++ Bytes.ofWord16 hw2)) := by
  show decode (hw1.toUInt8 :: (hw1 >>> 8).toUInt8 :: hw2.toUInt8 :: (hw2 >>> 8).toUInt8 :: rest) address = _
  unfold decode
  dsimp only
  rw [Bytes.joinWord16_ofWord16, Bytes.joinWord16_ofWord16, h, if_pos rfl]
  rfl

theorem Encodes.length_eq {form : BranchForm} {d : Int} {bytes : Bytes} (h : form.Encodes d bytes) :
    bytes.length = form.size.toNat := by
  cases h <;> rfl

/-- The fields of a jump of two bytes. -/
theorem field_short (half : Fin 2048) :
    field (0xE000 + half) 11 5 = 28 ∧ field (0xE000 + half) 12 4 = 14 ∧ field (0xE000 + half) 0 11 = half := by
  simp only [field, Nat.shiftRight_eq_div_pow, Nat.shiftLeft_eq]
  omega

/-- **An encoding** holds its displacement. -/
theorem Encodes.displacement_eq {form : BranchForm} {d : Int} {bytes : Bytes} (h : form.Encodes d bytes) :
    displacement bytes = d := by
  cases h with
  | short half =>
    obtain ⟨_, hgroup, hhalf⟩ := field_short half
    have hlt : 0xE000 + half.val < 0x10000 := by omega
    rw [displacement_short, UInt16.toNat_ofNat_of_lt' hlt, shortDisplacement, hgroup, hhalf,
      if_neg (by decide), if_neg (by decide)]
  | wide call p =>
    have hlong := (p.field_secondHalf call).2.2.1
    rw [displacement_wide, UInt16.toNat_ofNat_of_lt' p.firstHalf_lt, UInt16.toNat_ofNat_of_lt' (p.secondHalf_lt call),
      wideDisplacement, hlong, if_pos rfl, p.longValue_halves]

theorem decodeWide_halves (p : LongParts) (call : Bool) (address : UInt32) :
    ∃ op, decodeWide p.firstHalf (p.secondHalf (LongParts.kindOf call)) address = some op ∧
      op.mnemonic = (wide call).mnemonic := by
  obtain ⟨hgroup, _, _⟩ := p.field_firstHalf
  obtain ⟨h15, h14, h12, _, _, _⟩ := p.field_secondHalf call
  unfold decodeWide longBranch
  dsimp only
  rw [if_pos ⟨hgroup, h15⟩, h14, h12]
  cases call with
  | false => exact ⟨_, rfl, rfl⟩
  | true => exact ⟨_, rfl, rfl⟩

/-- **An encoding is decoded** as an instruction of its form. -/
theorem Encodes.decode_eq {form : BranchForm} {d : Int} {bytes : Bytes} (h : form.Encodes d bytes) (rest : Bytes)
    (address : UInt32) :
    ∃ i, decode (bytes ++ rest) address = some i ∧ i.bytes = bytes ∧ i.mnemonic = form.mnemonic := by
  cases h with
  | short half =>
    obtain ⟨hgroup, _, _⟩ := field_short half
    have hlt : 0xE000 + half.val < 0x10000 := by omega
    have hnarrow : isWide (0xE000 + half) = false := by
      rw [isWide, hgroup]
      rfl
    have hdecode : ∃ op, decodeShort (0xE000 + half) address = some op ∧ op.mnemonic = "b" := by
      unfold decodeShort
      dsimp only
      rw [hgroup]
      exact ⟨_, rfl, rfl⟩
    obtain ⟨op, hop, hmnemonic⟩ := hdecode
    rw [← UInt16.toNat_ofNat_of_lt' hlt] at hnarrow hop
    exact ⟨_, by rw [decode_ofWord16 hnarrow, hop]; rfl, rfl, hmnemonic⟩
  | wide call p =>
    have hwide : isWide p.firstHalf = true := by
      rw [isWide, p.field_firstHalf.1]
      rfl
    obtain ⟨op, hop, hmnemonic⟩ := decodeWide_halves p call address
    rw [← UInt16.toNat_ofNat_of_lt' p.firstHalf_lt] at hwide hop
    rw [← UInt16.toNat_ofNat_of_lt' (p.secondHalf_lt call)] at hop
    exact ⟨_, by rw [decode_ofWord16_append hwide, hop]; rfl, rfl, hmnemonic⟩

/-- What holds of the three mnemonics holds of that of every form. -/
theorem forall_mnemonic {p : String → Prop} (hshort : p "b") (hjump : p "b.w") (hcall : p "bl") (form : BranchForm) :
    p form.mnemonic := by
  match form with
  | short => exact hshort
  | wide false => exact hjump
  | wide true => exact hcall

theorem isJump_mnemonic (form : BranchForm) : isJump form.mnemonic = true :=
  forall_mnemonic (p := (isJump · = true)) rfl rfl rfl form

theorem isConditionalJump_mnemonic (form : BranchForm) : isConditionalJump form.mnemonic = false :=
  forall_mnemonic (p := (isConditionalJump · = false)) rfl rfl rfl form

theorem mnemonic_ne_blx (form : BranchForm) : form.mnemonic ≠ "blx" :=
  forall_mnemonic (p := (· ≠ "blx")) (by decide) (by decide) (by decide) form

/-- The mnemonic tells the form. -/
theorem eq_of_mnemonic_eq {form other : BranchForm} (h : form.mnemonic = other.mnemonic) : form = other := by
  match form, other with
  | short, short | wide false, wide false | wide true, wide true => rfl
  | short, wide false | short, wide true | wide false, short | wide false, wide true | wide true, short
  | wide true, wide false => exact absurd h (by decide)

/-- A halfword with the fields of a jump is the encoding of its displacement. -/
theorem encodes_ofWord16 {hw : UInt16} (hgroup : field hw.toNat 11 5 = 28) :
    Encodes short (displacement (Bytes.ofWord16 hw)) (Bytes.ofWord16 hw) := by
  have hhalf : hw.toNat % 0x800 < 2048 := by omega
  have hword : UInt16.ofNat (0xE000 + hw.toNat % 0x800) = hw := by
    have hlt := hw.toNat_lt
    simp only [field, Nat.shiftRight_eq_div_pow, Nat.shiftLeft_eq] at hgroup
    rw [show 0xE000 + hw.toNat % 0x800 = hw.toNat by omega, UInt16.ofNat_toNat]
  have hencodes := Encodes.short ⟨hw.toNat % 0x800, hhalf⟩
  rwa [← hencodes.displacement_eq, hword] at hencodes

/-- Two halfwords with the fields of a jump or a call likewise. -/
theorem encodes_ofWord16_append {hw1 hw2 : UInt16} {call : Bool} (hgroup : field hw1.toNat 11 5 = 30)
    (h15 : flag hw2.toNat 15 = true) (h14 : flag hw2.toNat 14 = call) (h12 : flag hw2.toNat 12 = true) :
    Encodes (wide call) (displacement (Bytes.ofWord16 hw1 ++ Bytes.ofWord16 hw2))
      (Bytes.ofWord16 hw1 ++ Bytes.ofWord16 hw2) := by
  obtain ⟨p, hfirst, hsecond⟩ := LongParts.exists_halves hw1.toNat_lt hw2.toNat_lt hgroup h15 h14 h12
  have hencodes := Encodes.wide call p
  rwa [← hencodes.displacement_eq, hfirst, hsecond, UInt16.ofNat_toNat, UInt16.ofNat_toNat] at hencodes

/-- **A decoded instruction of a form** is one of its encodings. -/
theorem encodes_of_decode {form : BranchForm} {code : Bytes} {address : UInt32} {i : Instruction}
    (h : decode code address = some i) (hmnemonic : i.mnemonic = form.mnemonic) :
    form.Encodes (displacement i.bytes) i.bytes := by
  have hnot : isConditionalJump i.mnemonic = false := hmnemonic ▸ form.isConditionalJump_mnemonic
  have hjump : isJump i.mnemonic = true := hmnemonic ▸ form.isJump_mnemonic
  rcases jump_cases h hjump with ⟨hw, op, hbranch, rfl⟩ | ⟨hw1, hw2, op, hgroup, h15, hbranch, rfl⟩
  · show form.Encodes (displacement (Bytes.ofWord16 hw)) (Bytes.ofWord16 hw)
    cases hbranch with
    | always hgroup =>
      have hform : form = short := eq_of_mnemonic_eq hmnemonic.symm
      exact hform ▸ encodes_ofWord16 hgroup
    | conditional _ _ => exact absurd (hnot.symm.trans (isConditionalJump_condition _).1) Bool.false_ne_true
    | compare =>
      have hcompare := isConditionalJump_compareAndBranch hw.toNat (counterAt address)
      exact absurd (hnot.symm.trans hcompare) Bool.false_ne_true
    | register => exact absurd hmnemonic.symm form.mnemonic_ne_blx
  · show form.Encodes (displacement (Bytes.ofWord16 hw1 ++ Bytes.ofWord16 hw2))
      (Bytes.ofWord16 hw1 ++ Bytes.ofWord16 hw2)
    cases hbranch with
    | always h14 h12 =>
      have hform : form = wide false := eq_of_mnemonic_eq hmnemonic.symm
      exact hform ▸ encodes_ofWord16_append hgroup h15 h14 h12
    | call h14 h12 =>
      have hform : form = wide true := eq_of_mnemonic_eq hmnemonic.symm
      exact hform ▸ encodes_ofWord16_append hgroup h15 h14 h12
    | conditional _ _ _ => exact absurd (hnot.symm.trans (isConditionalJump_condition _).2) Bool.false_ne_true
    | exchange => exact absurd hmnemonic.symm form.mnemonic_ne_blx

/-- A branch that does not wrap around covers just the distance to its target. -/
theorem staysInside_iff {i : Instruction} {target : UInt32} :
    (lowWord i.exactTarget = target ∧ i.StaysInside) ↔ displacement i.bytes = branchDistance i.address target := by
  have ht := target.toNat_lt
  unfold Instruction.StaysInside Instruction.exactTarget branchDistance
  generalize (displacement i.bytes) = d
  constructor
  · rintro ⟨rfl, hle, hlt⟩
    have hmod : ((i.address.toNat : Int) + 4 + d) % 0x100000000 = i.address.toNat + 4 + d := Int.emod_eq_of_lt hle hlt
    have hword : ((i.address.toNat : Int) + 4 + d).toNat < 0x100000000 := by omega
    rw [lowWord, hmod, UInt32.toNat_ofNat_of_lt' hword]
    omega
  · intro hd
    have hexact : (i.address.toNat : Int) + 4 + d = target.toNat := by omega
    rw [hexact, lowWord_toNat]
    exact ⟨rfl, by omega, by omega⟩

/-- **Encoders and decoder are inverse.** The encoder of a form makes just the bytes that are decoded, whatever follows
them, as the instruction of that form and size which leads to the target without wrapping around. -/
theorem encode_eq_some_iff (form : BranchForm) (source target : UInt32) (bytes rest : Bytes) :
    form.encode source target = some bytes ↔
      ∃ i, decode (bytes ++ rest) source = some i ∧ i.bytes = bytes ∧ i.mnemonic = form.mnemonic
        ∧ i.size = form.size ∧ i.branchTarget = some target ∧ i.StaysInside := by
  have htarget : ∀ {i}, decode (bytes ++ rest) source = some i → i.mnemonic = form.mnemonic →
      i.branchTarget = some (lowWord i.exactTarget) := by
    intro i hdecode hmnemonic
    have hjump : isJump i.mnemonic = true := hmnemonic ▸ form.isJump_mnemonic
    exact (branch_names hdecode hjump (hmnemonic ▸ form.mnemonic_ne_blx)).branchTarget hjump
  rw [encode_eq_some_iff_encodes]
  constructor
  · intro h
    obtain ⟨i, hdecode, hbytes, hmnemonic⟩ := h.decode_eq rest source
    have hsize : i.size = form.size := by
      rw [Instruction.size, hbytes, h.length_eq, UInt32.ofNat_toNat]
    have hdistance : displacement i.bytes = branchDistance i.address target := by
      rw [hbytes, h.displacement_eq, address_of_decode hdecode]
    obtain ⟨hlow, hinside⟩ := staysInside_iff.2 hdistance
    exact ⟨i, hdecode, hbytes, hmnemonic, hsize, hlow ▸ htarget hdecode hmnemonic, hinside⟩
  · rintro ⟨i, hdecode, hbytes, hmnemonic, _, hbranch, hinside⟩
    have hlow : lowWord i.exactTarget = target := Option.some.inj ((htarget hdecode hmnemonic).symm.trans hbranch)
    have hdistance := staysInside_iff.1 ⟨hlow, hinside⟩
    have hencodes := encodes_of_decode hdecode hmnemonic
    rwa [hdistance, address_of_decode hdecode, hbytes] at hencodes

end BranchForm

end BinaryPatching.Thumb
