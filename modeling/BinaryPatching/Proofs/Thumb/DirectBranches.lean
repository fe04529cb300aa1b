import BinaryPatching.Proofs.Thumb.Branches

/-!
# `BinaryPatching.Proofs.Thumb.DirectBranches` — which instructions have a target

Whether an instruction is a direct branch, and where it goes, is asked of its text. The encodings of direct branches and
their targets are written out here once more, apart from the decoder. Just the instructions that come from one of these
encodings have a target, and it is the one that the encoding says.

## Contents
- `ConditionalParts`: the parts of the displacement of a wide conditional branch.
- `DirectBranch`, with `bytes`, `offset`, `target`: the encodings.
- `DirectBranch.decode_eq`: they are decoded, as instructions that name their targets.
- `DirectBranch.exists_of_decode`: there are no others.
- `branchTarget_decode_eq_some_iff`: both together.
-/

namespace BinaryPatching.Thumb

open Text

/-! ## Encodings -/

/-- The parts of the displacement of a wide conditional branch. Two of its bits are stored in the second halfword, the
higher one behind the lower one. -/
structure ConditionalParts where
  /-- The sign. -/
  sign : Fin 2
  /-- The bit behind the sign. -/
  first : Fin 2
  /-- The bit behind that. -/
  second : Fin 2
  /-- The rest in the first halfword. -/
  high : Fin 64
  /-- The rest in the second halfword. -/
  low : Fin 2048

/-- The number that the parts make up. -/
def ConditionalParts.value (p : ConditionalParts) : Nat :=
  p.sign * 0x100000 + p.first * 0x80000 + p.second * 0x40000 + p.high * 0x1000 + p.low * 2

/-- **The encodings of direct branches**, by their fields. -/
inductive DirectBranch where
  /-- A branch of two bytes under a condition. -/
  | conditional (c : Condition) (half : Fin 256)
  /-- A branch of two bytes. -/
  | always (half : Fin 2048)
  /-- A branch forwards if a register is zero, or if it is not. -/
  | compare (nonzero high : Fin 2) (low : Fin 32) (r : Fin 8)
  /-- A branch of four bytes under a condition. -/
  | conditionalWide (c : Condition) (p : ConditionalParts)
  /-- A branch of four bytes. -/
  | alwaysWide (p : LongParts)
  /-- A call. -/
  | call (p : LongParts)
  /-- A call of code for the other instruction set, which lies at multiples of four. -/
  | exchange (p : LongParts) (heven : p.low.val % 2 = 0)

namespace DirectBranch

/-- The halfwords of an encoding. -/
def halves : DirectBranch → List Nat
  | conditional c half => [0xD000 + c * 0x100 + half]
  | always half => [0xE000 + half]
  | compare nonzero high low r => [0xB100 + nonzero * 0x800 + high * 0x200 + low * 8 + r]
  | conditionalWide c p =>
    [0xF000 + p.sign * 0x400 + c * 0x40 + p.high, 0x8000 + p.second * 0x2000 + p.first * 0x800 + p.low]
  | alwaysWide p => [p.firstHalf, p.secondHalf 0x9000]
  | call p => [p.firstHalf, p.secondHalf 0xD000]
  | exchange p _ => [p.firstHalf, p.secondHalf 0xC000]

/-- **The bytes of an encoding**. -/
def bytes (e : DirectBranch) : Bytes := e.halves.flatMap fun n => Bytes.ofWord16 (UInt16.ofNat n)

/-- **The immediate of an encoding**: a signed number, except behind a comparison. -/
def offset : DirectBranch → Int
  | conditional _ half => Int.bmod (2 * half : Nat) 0x200
  | always half => Int.bmod (2 * half : Nat) 0x1000
  | compare _ high low _ => (high * 64 + low * 2 : Nat)
  | conditionalWide _ p => Int.bmod p.value 0x200000
  | alwaysWide p => Int.bmod p.value 0x2000000
  | call p => Int.bmod p.value 0x2000000
  | exchange p _ => Int.bmod p.value 0x2000000

/-- **What the immediate is added to**: the program counter, rounded down where the other instruction set is called. -/
def counter (address : UInt32) : DirectBranch → Int
  | exchange _ _ => (address.toNat + 4) / 4 * 4
  | _ => address.toNat + 4

/-- **The target of an encoding** at an address. -/
def target (e : DirectBranch) (address : UInt32) : UInt32 := lowWord (e.counter address + e.offset)

/-- What an encoding means at an address. -/
def operation (e : DirectBranch) (address : UInt32) : Operation :=
  match e with
  | conditional c _ => ⟨"b" ++ c.name, [.value (e.target address)]⟩
  | always _ => ⟨"b", [.value (e.target address)]⟩
  | compare nonzero _ _ r => ⟨if nonzero = 1 then "cbnz" else "cbz", [reg r, .value (e.target address)]⟩
  | conditionalWide c _ => ⟨"b" ++ c.name ++ ".w", [.value (e.target address)]⟩
  | alwaysWide _ => ⟨"b.w", [.value (e.target address)]⟩
  | call _ => ⟨"bl", [.value (e.target address)]⟩
  | exchange _ _ => ⟨"blx", [.value (e.target address)]⟩

/-! ## Their instructions -/

/-- The operation of an encoding is that of a jump, and names the target. -/
theorem isJump_operation (e : DirectBranch) (address : UInt32) : isJump (e.operation address).mnemonic = true := by
  cases e with
  | conditional c _ => exact isJump_of_isConditionalJump (isConditionalJump_condition c).1
  | conditionalWide c _ => exact isJump_of_isConditionalJump (isConditionalJump_condition c).2
  | compare nonzero _ _ _ =>
    show isJump (if nonzero = 1 then "cbnz" else "cbz") = true
    split <;> rfl
  | always _ | alwaysWide _ | call _ | exchange _ _ =>
    dsimp only [operation]
    rfl

theorem names_operation (e : DirectBranch) (address : UInt32) (bytes : Bytes) :
    ((e.operation address).toInstruction address bytes).Names (e.target address) := by
  cases e with
  | compare _ _ _ _ => exact names_registerValue
  | conditional _ _ | always _ | conditionalWide _ _ | alwaysWide _ | call _ | exchange _ _ => exact names_value

/-- **The instruction of an encoding** has the target that the encoding says. -/
theorem branchTarget_operation (e : DirectBranch) (address : UInt32) (bytes : Bytes) :
    ((e.operation address).toInstruction address bytes).branchTarget = some (e.target address) :=
  (e.names_operation address bytes).branchTarget (e.isJump_operation address)

/-! ## Targets in the decoder -/

/-- The program counter and a field in two's complement. -/
theorem counterAt_add_extendSign {bits value m : Nat} (hm : 1 <<< bits = m) (hpos : 0 < bits) (hbits : bits ≤ 32)
    (hvalue : value < m) (address : UInt32) :
    counterAt address + extendSign bits value = lowWord (address.toNat + 4 + Int.bmod value m) := by
  rw [add_extendSign hm hpos hbits hvalue, lowWord_counterAt]

/-- Rounding the program counter down goes well with addresses that wrap around, for these end at a multiple of four. -/
theorem lowWord_wordPart_counterAt (address : UInt32) (d : Int) :
    lowWord ((wordPart (counterAt address)).toNat + d) = lowWord ((address.toNat + 4) / 4 * 4 + d) := by
  have haddress := address.toNat_lt
  have h4 : (4 : UInt32).toNat = 4 := rfl
  rw [toNat_wordPart, counterAt, UInt32.toNat_add, h4, lowWord, lowWord]
  congr 2
  omega

theorem wordPart_add_longOffset (hw1 hw2 : Nat) (address : UInt32) :
    wordPart (counterAt address) + longOffset hw1 hw2
      = lowWord ((address.toNat + 4) / 4 * 4 + Int.bmod (longValue hw1 hw2) 0x2000000) := by
  rw [← lowWord_wordPart_counterAt]
  exact add_extendSign (show 1 <<< 25 = 0x2000000 from rfl) (by decide) (by decide) (longValue_lt hw1 hw2) _

theorem counterAt_add_longOffset (hw1 hw2 : Nat) (address : UInt32) :
    counterAt address + longOffset hw1 hw2
      = lowWord (address.toNat + 4 + Int.bmod (longValue hw1 hw2) 0x2000000) :=
  counterAt_add_extendSign (show 1 <<< 25 = 0x2000000 from rfl) (by decide) (by decide) (longValue_lt hw1 hw2) address

theorem counterAt_add_conditionalOffset (hw1 hw2 : Nat) (address : UInt32) :
    counterAt address + conditionalOffset hw1 hw2
      = lowWord (address.toNat + 4 + Int.bmod (conditionalValue hw1 hw2) 0x200000) :=
  counterAt_add_extendSign (show 1 <<< 21 = 0x200000 from rfl) (by decide) (by decide) (conditionalValue_lt hw1 hw2)
    address

/-! ## From encodings to instructions -/

/-- What `ShortBranch` says of the fields is all that the decoder looks at. -/
theorem decodeShort_of_shortBranch {hw : Nat} {address : UInt32} {op : Operation} (h : ShortBranch hw address op)
    (hblx : op.mnemonic ≠ "blx") : decodeShort hw address = some op := by
  have hgroup := field_twelve_four hw
  unfold decodeShort
  dsimp only
  cases h with
  | always h =>
    rw [h]
    rfl
  | @conditional c h hc =>
    have hfield : field hw 11 5 = 26 ∨ field hw 11 5 = 27 := by omega
    have hconditional : conditionalOrCall hw (counterAt address)
        = some ⟨"b" ++ c.name, [.value (counterAt address + extendSign 9 (2 * field hw 0 8))]⟩ := by
      rw [conditionalOrCall, hc]
    rcases hfield with hfield | hfield <;> rw [hfield] <;> exact hconditional
  | compare h hop =>
    have hfield : field hw 11 5 = 22 ∨ field hw 11 5 = 23 := by omega
    have hcompare : miscellaneous hw (counterAt address) = some (compareAndBranch hw (counterAt address)) := by
      unfold miscellaneous
      simp only [List.mem_cons, List.not_mem_nil, or_false] at hop
      rcases hop with hop | hop | hop | hop <;> rw [hop] <;> rfl
    rcases hfield with hfield | hfield <;> rw [hfield] <;> exact hcompare
  | register => exact absurd rfl hblx

theorem decodeWide_of_wideBranch {hw1 hw2 : Nat} {address : UInt32} {op : Operation}
    (hgroup : field hw1 11 5 = 30) (h15 : flag hw2 15 = true) (h : WideBranch hw1 hw2 address op) :
    decodeWide hw1 hw2 address = some op := by
  unfold decodeWide
  dsimp only
  rw [if_pos ⟨hgroup, h15⟩, longBranch]
  cases h with
  | conditional h14 h12 hc => rw [h14, h12, hc]
  | always h14 h12 => rw [h14, h12]
  | call h14 h12 => rw [h14, h12]
  | exchange h14 h12 h0 =>
    rw [h14, h12]
    dsimp only
    rw [h0, if_neg Bool.false_ne_true]

/-- The conditions have numbers of their own. -/
theorem ofField_condition (c : Condition) : Condition.ofField c.val = some c := dif_pos c.isLt

/-- The encodings of two bytes have the fields that the decoder asks for. -/
theorem shortBranch_conditional (c : Condition) (half : Fin 256) (address : UInt32) :
    ShortBranch (0xD000 + c * 0x100 + half) address ((conditional c half).operation address) := by
  have hgroup : field (0xD000 + c * 0x100 + half) 12 4 = 13 := by
    simp only [field, Nat.shiftRight_eq_div_pow, Nat.shiftLeft_eq]
    omega
  have hcondition : field (0xD000 + c * 0x100 + half) 8 4 = c := by
    simp only [field, Nat.shiftRight_eq_div_pow, Nat.shiftLeft_eq]
    omega
  have hhalf : field (0xD000 + c * 0x100 + half) 0 8 = half := by
    simp only [field, Nat.shiftRight_eq_div_pow, Nat.shiftLeft_eq]
    omega
  have hbranch : ShortBranch _ address _ := .conditional hgroup (hcondition ▸ ofField_condition c)
  rw [hhalf, counterAt_add_extendSign (show 1 <<< 9 = 0x200 from rfl) (by decide) (by decide) (by omega)] at hbranch
  exact hbranch

theorem shortBranch_always (half : Fin 2048) (address : UInt32) :
    ShortBranch (0xE000 + half) address ((always half).operation address) := by
  obtain ⟨hgroup, _, hhalf⟩ := BranchForm.field_short half
  have hbranch : ShortBranch _ address _ := .always hgroup
  rw [hhalf, counterAt_add_extendSign (show 1 <<< 12 = 0x1000 from rfl) (by decide) (by decide) (by omega)] at hbranch
  exact hbranch

theorem shortBranch_compare (nonzero high : Fin 2) (low : Fin 32) (r : Fin 8) (address : UInt32) :
    ShortBranch (0xB100 + nonzero * 0x800 + high * 0x200 + low * 8 + r) address
      ((compare nonzero high low r).operation address) := by
  obtain ⟨n, hn⟩ : ∃ n, n = 0xB100 + nonzero.val * 0x800 + high.val * 0x200 + low.val * 8 + r.val := ⟨_, rfl⟩
  have hfields : field n 12 4 = 11 ∧ field n 8 4 = 1 + nonzero * 8 + high * 2 ∧ field n 11 1 = nonzero
      ∧ field n 9 1 = high ∧ field n 3 5 = low ∧ field n 0 3 = r := by
    simp only [field, Nat.shiftRight_eq_div_pow, Nat.shiftLeft_eq]
    omega
  obtain ⟨hgroup, hop, hnonzero, hhigh, hlow, hr⟩ := hfields
  have hone : flag n 11 = decide (nonzero = 1) := by
    rw [flag, hnonzero]
    exact decide_eq_decide.2 (Fin.ext_iff (b := 1)).symm
  have hmem : field n 8 4 ∈ [1, 3, 9, 11] := by
    have hall : ∀ nonzero high : Fin 2, 1 + nonzero.val * 8 + high.val * 2 ∈ [1, 3, 9, 11] := by decide
    exact hop ▸ hall nonzero high
  have hsame : compareAndBranch n (counterAt address) = (compare nonzero high low r).operation address := by
    rw [compareAndBranch, hone, hhigh, hlow, hr, add_ofNat, lowWord_counterAt]
    simp only [operation, decide_eq_true_eq]
    rfl
  rw [← hn, ← hsame]
  exact .compare hgroup hmem

/-- The encodings of four bytes likewise. -/
theorem wideBranch_conditionalWide (c : Condition) (p : ConditionalParts) (address : UInt32) :
    WideBranch (0xF000 + p.sign * 0x400 + c * 0x40 + p.high) (0x8000 + p.second * 0x2000 + p.first * 0x800 + p.low)
      address ((conditionalWide c p).operation address) := by
  have hcondition : field (0xF000 + p.sign * 0x400 + c * 0x40 + p.high) 6 4 = c := by
    simp only [field, Nat.shiftRight_eq_div_pow, Nat.shiftLeft_eq]
    omega
  have hflags : flag (0x8000 + p.second * 0x2000 + p.first * 0x800 + p.low) 14 = false
      ∧ flag (0x8000 + p.second * 0x2000 + p.first * 0x800 + p.low) 12 = false := by
    simp only [flag, field, Nat.shiftRight_eq_div_pow, Nat.shiftLeft_eq, decide_eq_false_iff_not]
    omega
  have hvalue : conditionalValue (0xF000 + p.sign * 0x400 + c * 0x40 + p.high)
      (0x8000 + p.second * 0x2000 + p.first * 0x800 + p.low) = p.value := by
    simp only [conditionalValue, ConditionalParts.value, field, Nat.shiftRight_eq_div_pow, Nat.shiftLeft_eq]
    omega
  have hbranch : WideBranch _ _ address _ := .conditional hflags.1 hflags.2 (hcondition ▸ ofField_condition c)
  rw [counterAt_add_conditionalOffset, hvalue] at hbranch
  exact hbranch

/-- A branch that is always taken and a call differ by one bit. -/
theorem wideBranch_kindOf (isCall : Bool) (p : LongParts) (address : UInt32) :
    WideBranch p.firstHalf (p.secondHalf (LongParts.kindOf isCall)) address
      ((if isCall then call p else alwaysWide p).operation address) := by
  obtain ⟨_, h14, h12, _⟩ := p.field_secondHalf isCall
  have htarget := counterAt_add_longOffset p.firstHalf (p.secondHalf (LongParts.kindOf isCall)) address
  rw [p.longValue_halves isCall] at htarget
  cases isCall with
  | false =>
    have hbranch : WideBranch p.firstHalf _ address _ := .always h14 h12
    rw [htarget] at hbranch
    exact hbranch
  | true =>
    have hbranch : WideBranch p.firstHalf _ address _ := .call h14 h12
    rw [htarget] at hbranch
    exact hbranch

theorem wideBranch_exchange (p : LongParts) (heven : p.low.val % 2 = 0) (address : UInt32) :
    WideBranch p.firstHalf (p.secondHalf 0xC000) address ((exchange p heven).operation address) := by
  obtain ⟨hbits, _, _, hlow⟩ := p.field_secondHalf_of_kind (show field 0xC000 0 12 = 0 by decide) (by decide)
  have h14 : flag (p.secondHalf 0xC000) 14 = true := hbits 14 (by decide)
  have h12 : flag (p.secondHalf 0xC000) 12 = false := hbits 12 (by decide)
  have h0 : flag (p.secondHalf 0xC000) 0 = false := by
    simp only [flag, field, Nat.shiftRight_eq_div_pow, Nat.shiftLeft_eq, decide_eq_false_iff_not] at hlow ⊢
    omega
  have hbranch : WideBranch p.firstHalf _ address _ := .exchange h14 h12 h0
  rw [wordPart_add_longOffset, p.longValue_of_kind (by decide) (by decide)] at hbranch
  exact hbranch

/-- **Every encoding** has the fields of a branch of two bytes or of four. -/
theorem branch_cases (e : DirectBranch) (address : UInt32) :
    (∃ n, e.halves = [n] ∧ n < 0x10000 ∧ field n 11 5 < 29 ∧ (e.operation address).mnemonic ≠ "blx"
      ∧ ShortBranch n address (e.operation address))
    ∨ ∃ n m, e.halves = [n, m] ∧ n < 0x10000 ∧ m < 0x10000 ∧ field n 11 5 = 30 ∧ flag m 15 = true
      ∧ WideBranch n m address (e.operation address) := by
  cases e with
  | conditional c half =>
    refine .inl ⟨_, rfl, by omega, ?_, ?_, shortBranch_conditional c half address⟩
    · simp only [field, Nat.shiftRight_eq_div_pow, Nat.shiftLeft_eq]
      omega
    · exact ne_blx_of_isConditionalJump (isConditionalJump_condition c).1
  | always half =>
    refine .inl ⟨_, rfl, by omega, ?_, ?_, shortBranch_always half address⟩
    · rw [(BranchForm.field_short half).1]
      decide
    · show "b" ≠ "blx"
      decide
  | compare nonzero high low r =>
    refine .inl ⟨_, rfl, by omega, ?_, ?_, shortBranch_compare nonzero high low r address⟩
    · simp only [field, Nat.shiftRight_eq_div_pow, Nat.shiftLeft_eq]
      omega
    · show (if nonzero = 1 then "cbnz" else "cbz") ≠ "blx"
      split <;> decide
  | conditionalWide c p =>
    refine .inr ⟨_, _, rfl, by omega, by omega, ?_, ?_, wideBranch_conditionalWide c p address⟩
    · simp only [field, Nat.shiftRight_eq_div_pow, Nat.shiftLeft_eq]
      omega
    · simp only [flag, field, Nat.shiftRight_eq_div_pow, Nat.shiftLeft_eq, decide_eq_true_eq]
      omega
  | alwaysWide p =>
    exact .inr ⟨_, _, rfl, p.firstHalf_lt, p.secondHalf_lt false, p.field_firstHalf.1, (p.field_secondHalf false).1,
      wideBranch_kindOf false p address⟩
  | call p =>
    exact .inr ⟨_, _, rfl, p.firstHalf_lt, p.secondHalf_lt true, p.field_firstHalf.1, (p.field_secondHalf true).1,
      wideBranch_kindOf true p address⟩
  | exchange p heven =>
    have hlt : p.secondHalf 0xC000 < 0x10000 := by
      have hj1 := sameAsSign_le p.first p.sign
      have hj2 := sameAsSign_le p.second p.sign
      unfold LongParts.secondHalf
      omega
    have h15 : flag (p.secondHalf 0xC000) 15 = true :=
      (p.field_secondHalf_of_kind (by decide) (by decide)).1 15 (by decide)
    exact .inr ⟨_, _, rfl, p.firstHalf_lt, hlt, p.field_firstHalf.1, h15, wideBranch_exchange p heven address⟩

/-- **An encoding is decoded** as the instruction that it stands for. -/
theorem decode_eq (e : DirectBranch) (rest : Bytes) (address : UInt32) :
    decode (e.bytes ++ rest) address = some ((e.operation address).toInstruction address e.bytes) := by
  rcases e.branch_cases address with
    ⟨n, hhalves, hlt, hnarrow, hblx, hbranch⟩ | ⟨n, m, hhalves, hlt, hlt', hgroup, h15, hbranch⟩
  · have hbytes : e.bytes = Bytes.ofWord16 (UInt16.ofNat n) := by
      rw [bytes, hhalves, List.flatMap_singleton]
    have hop := decodeShort_of_shortBranch hbranch hblx
    have hshort : isWide n = false := decide_eq_false (by omega)
    rw [← UInt16.toNat_ofNat_of_lt' hlt] at hop hshort
    rw [hbytes, BranchForm.decode_ofWord16 hshort, hop]
    rfl
  · have hbytes : e.bytes = Bytes.ofWord16 (UInt16.ofNat n) ++ Bytes.ofWord16 (UInt16.ofNat m) := by
      rw [bytes, hhalves, List.flatMap_cons, List.flatMap_singleton]
    have hop := decodeWide_of_wideBranch hgroup h15 hbranch
    have hwide : isWide n = true := decide_eq_true (by omega)
    rw [← UInt16.toNat_ofNat_of_lt' hlt] at hop hwide
    rw [← UInt16.toNat_ofNat_of_lt' hlt'] at hop
    rw [hbytes, BranchForm.decode_ofWord16_append hwide, hop]
    rfl

/-! ## From instructions to encodings -/

theorem bytes_of_halves_singleton {e : DirectBranch} {hw : UInt16} (h : e.halves = [hw.toNat]) :
    e.bytes = Bytes.ofWord16 hw := by
  rw [bytes, h, List.flatMap_singleton, UInt16.ofNat_toNat]

theorem bytes_of_halves_pair {e : DirectBranch} {hw1 hw2 : UInt16} (h : e.halves = [hw1.toNat, hw2.toNat]) :
    e.bytes = Bytes.ofWord16 hw1 ++ Bytes.ofWord16 hw2 := by
  rw [bytes, h, List.flatMap_cons, List.flatMap_singleton, UInt16.ofNat_toNat, UInt16.ofNat_toNat]

/-- The number of a condition is in its field. -/
theorem val_of_ofField {n : Nat} {c : Condition} (h : Condition.ofField n = some c) : c.val = n := by
  unfold Condition.ofField at h
  split at h
  · cases h
    rfl
  · cases h

/-- **A branch of two bytes** has an encoding, unless it goes to a register. -/
theorem exists_of_shortBranch {hw : UInt16} {address : UInt32} {op : Operation}
    (h : ShortBranch hw.toNat address op) (hblx : op.mnemonic ≠ "blx") :
    ∃ e : DirectBranch, e.bytes = Bytes.ofWord16 hw := by
  have hlt := hw.toNat_lt
  cases h with
  | @conditional c h hc =>
    have hcondition := val_of_ofField hc
    refine ⟨conditional c ⟨hw.toNat % 0x100, by omega⟩, bytes_of_halves_singleton ?_⟩
    show [0xD000 + c.val * 0x100 + hw.toNat % 0x100] = [hw.toNat]
    simp only [field, Nat.shiftRight_eq_div_pow, Nat.shiftLeft_eq, List.cons.injEq, and_true] at *
    omega
  | always h =>
    refine ⟨always ⟨hw.toNat % 0x800, by omega⟩, bytes_of_halves_singleton ?_⟩
    show [0xE000 + hw.toNat % 0x800] = [hw.toNat]
    simp only [field, Nat.shiftRight_eq_div_pow, Nat.shiftLeft_eq, List.cons.injEq, and_true] at *
    omega
  | compare h hop =>
    refine ⟨compare ⟨hw.toNat / 0x800 % 2, by omega⟩ ⟨hw.toNat / 0x200 % 2, by omega⟩ ⟨hw.toNat / 8 % 0x20, by omega⟩
      ⟨hw.toNat % 8, by omega⟩, bytes_of_halves_singleton ?_⟩
    show [0xB100 + hw.toNat / 0x800 % 2 * 0x800 + hw.toNat / 0x200 % 2 * 0x200 + hw.toNat / 8 % 0x20 * 8
      + hw.toNat % 8] = [hw.toNat]
    simp only [field, Nat.shiftRight_eq_div_pow, Nat.shiftLeft_eq, List.cons.injEq, and_true, List.mem_cons,
      List.not_mem_nil, or_false] at *
    omega
  | register => exact absurd rfl hblx

/-- **A branch of four bytes** has an encoding. -/
theorem exists_of_wideBranch {hw1 hw2 : UInt16} {address : UInt32} {op : Operation}
    (hgroup : field hw1.toNat 11 5 = 30) (h15 : flag hw2.toNat 15 = true)
    (h : WideBranch hw1.toNat hw2.toNat address op) :
    ∃ e : DirectBranch, e.bytes = Bytes.ofWord16 hw1 ++ Bytes.ofWord16 hw2 := by
  have hlt1 := hw1.toNat_lt
  have hlt2 := hw2.toNat_lt
  cases h with
  | @conditional c h14 h12 hc =>
    have hcondition := val_of_ofField hc
    refine ⟨conditionalWide c ⟨⟨hw1.toNat / 0x400 % 2, by omega⟩, ⟨hw2.toNat / 0x800 % 2, by omega⟩,
      ⟨hw2.toNat / 0x2000 % 2, by omega⟩, ⟨hw1.toNat % 0x40, by omega⟩, ⟨hw2.toNat % 0x800, by omega⟩⟩,
      bytes_of_halves_pair ?_⟩
    show [0xF000 + hw1.toNat / 0x400 % 2 * 0x400 + c.val * 0x40 + hw1.toNat % 0x40,
      0x8000 + hw2.toNat / 0x2000 % 2 * 0x2000 + hw2.toNat / 0x800 % 2 * 0x800 + hw2.toNat % 0x800]
        = [hw1.toNat, hw2.toNat]
    simp only [flag, field, Nat.shiftRight_eq_div_pow, Nat.shiftLeft_eq, List.cons.injEq, and_true,
      decide_eq_true_eq, decide_eq_false_iff_not] at *
    omega
  | always h14 h12 =>
    obtain ⟨p, hfirst, hsecond⟩ := LongParts.exists_halves hlt1 hlt2 hgroup h15 h14 h12
    exact ⟨alwaysWide p, bytes_of_halves_pair (by rw [← hfirst, ← hsecond]; rfl)⟩
  | call h14 h12 =>
    obtain ⟨p, hfirst, hsecond⟩ := LongParts.exists_halves hlt1 hlt2 hgroup h15 h14 h12
    exact ⟨call p, bytes_of_halves_pair (by rw [← hfirst, ← hsecond]; rfl)⟩
  | exchange h14 h12 h0 =>
    have hkind : hw2.toNat = 0xC000 + field hw2.toNat 13 1 * 0x2000 + field hw2.toNat 11 1 * 0x800
        + field hw2.toNat 0 11 := by
      simp only [flag, field, Nat.shiftRight_eq_div_pow, Nat.shiftLeft_eq, decide_eq_true_eq,
        decide_eq_false_iff_not] at *
      omega
    obtain ⟨p, hfirst, hsecond, hlow⟩ := LongParts.exists_halves_of_kind hlt1 hgroup hkind
    have heven : p.low.val % 2 = 0 := by
      simp only [flag, field, Nat.shiftRight_eq_div_pow, Nat.shiftLeft_eq, decide_eq_false_iff_not] at h0 hlow
      omega
    exact ⟨exchange p heven, bytes_of_halves_pair (by rw [← hfirst, ← hsecond]; rfl)⟩

/-- A call through a register has no target, for the name of a register has no number behind a mark. -/
theorem branchTarget_register (r : Register) (mnemonic : String) (address : UInt32) (bytes : Bytes) :
    ((Operation.mk mnemonic [.register r]).toInstruction address bytes).branchTarget = none := by
  have hnone : ∀ r : Register, endingNumber? r.name.toList = none := by decide +kernel
  have hliteral : ((Operation.mk mnemonic [.register r]).toInstruction address bytes).literalValue = none := by
    show (endingNumber? r.name.toList).bind _ = none
    rw [hnone r]
    rfl
  rw [Instruction.branchTarget, hliteral, ite_self]

/-- **An instruction with a target** comes from an encoding. -/
theorem exists_of_decode {code : Bytes} {address target : UInt32} {i : Instruction}
    (h : decode code address = some i) (htarget : i.branchTarget = some target) :
    ∃ e : DirectBranch, e.bytes = i.bytes := by
  have hjump : isJump i.mnemonic = true := by
    cases hjump : isJump i.mnemonic with
    | true => rfl
    | false => simp [Instruction.branchTarget, hjump] at htarget
  rcases jump_cases h hjump with ⟨hw, op, hbranch, rfl⟩ | ⟨hw1, hw2, op, hgroup, h15, hbranch, rfl⟩
  · by_cases hblx : op.mnemonic = "blx"
    · cases hbranch with
      | register =>
        rw [reg, branchTarget_register] at htarget
        cases htarget
      | always _ => exact absurd hblx (by dsimp only; decide)
      | conditional _ _ => exact absurd hblx (ne_blx_of_isConditionalJump (isConditionalJump_condition _).1)
      | compare _ _ => exact absurd hblx (ne_blx_of_isConditionalJump (isConditionalJump_compareAndBranch _ _))
    · exact exists_of_shortBranch hbranch hblx
  · exact exists_of_wideBranch hgroup h15 hbranch

end DirectBranch

/-- **Just the direct branches have targets.** A decoded instruction has a target if and only if the code begins with an
encoding of a direct branch. It is the target of that encoding at the address: the program counter, which is four bytes
ahead and rounded down for the other instruction set, and the immediate, up to the size of addresses. -/
theorem branchTarget_decode_eq_some_iff (code : Bytes) (address target : UInt32) :
    (decode code address).bind Instruction.branchTarget = some target ↔
      ∃ e : DirectBranch, e.bytes <+: code ∧ e.target address = target := by
  constructor
  · intro h
    obtain ⟨i, hdecode, htarget⟩ := Option.bind_eq_some_iff.1 h
    obtain ⟨e, hbytes⟩ := DirectBranch.exists_of_decode hdecode htarget
    have hprefix : e.bytes <+: code := by
      rw [hbytes, bytes_of_decode hdecode]
      exact List.take_prefix _ _
    obtain ⟨rest, rfl⟩ := hprefix
    rw [e.decode_eq, Option.bind_some, e.branchTarget_operation] at h
    exact ⟨e, List.prefix_append _ _, Option.some.inj h⟩
  · rintro ⟨e, ⟨rest, rfl⟩, rfl⟩
    rw [e.decode_eq, Option.bind_some, e.branchTarget_operation]

end BinaryPatching.Thumb
