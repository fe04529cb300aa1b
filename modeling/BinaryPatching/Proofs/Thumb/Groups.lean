import BinaryPatching.Thumb.Decode

/-!
# `BinaryPatching.Proofs.Thumb.Groups` — the mnemonics of the encoding table

Most groups of the encoding table have ordinary mnemonics: neither those of direct branches nor those of the loads of
half a word. With one lemma for each of these groups, the few encodings that have one of the others are told by their
fields, and nothing has to be said about the rest of the table again.

## Contents
- `isHalf`, `isOrdinary`: the mnemonics.
- `ShortBranch`, `ordinary_or_shortBranch`: encodings of one halfword, after one lemma for each group.
- `WideBranch`, `wide_cases`: encodings of two halfwords, likewise.
- `jump_cases`, `half_cases`: the instructions that are not ordinary.
-/

namespace BinaryPatching.Thumb

open Text

/-! ## Mnemonics -/

/-- **The mnemonics of the loads of half a word.** -/
def isHalf (mnemonic : String) : Bool := mnemonic == "movw" || mnemonic == "movt"

/-- **The mnemonics of most groups**: those of all but direct branches and loads of half a word. -/
def isOrdinary (mnemonic : String) : Bool := !isJump mnemonic && !isHalf mnemonic

theorem isOrdinary_iff {mnemonic : String} :
    isOrdinary mnemonic = true ↔ isJump mnemonic = false ∧ isHalf mnemonic = false := by
  rw [isOrdinary, Bool.and_eq_true, Bool.not_eq_true', Bool.not_eq_true']

theorem isHalf_iff {mnemonic : String} : isHalf mnemonic = true ↔ mnemonic = "movw" ∨ mnemonic = "movt" := by
  rw [isHalf, Bool.or_eq_true, beq_iff_eq, beq_iff_eq]

/-- A mnemonic begins as it does without the mark of a wide encoding. -/
theorem head?_of_withoutWide {mnemonic : String} {c : Char} (h : (withoutWide mnemonic).toList.head? = some c) :
    mnemonic.toList.head? = some c := by
  rw [withoutWide, toList_onChars] at h
  unfold withoutEnding? at h
  split at h
  · rw [Option.getD_some, List.head?_take] at h
    split at h
    · cases h
    · exact h
  · exact h

/-- Direct branches begin with one of two letters. -/
theorem head?_of_isJump {mnemonic : String} (h : isJump mnemonic = true) :
    mnemonic.toList.head? = some 'b' ∨ mnemonic.toList.head? = some 'c' := by
  have hbase : (withoutWide mnemonic).toList.head? = some 'b' ∨ (withoutWide mnemonic).toList.head? = some 'c' := by
    simp only [isJump, isConditionalJump, Bool.or_eq_true, beq_iff_eq, List.any_eq_true] at h
    rcases h with ((h | h) | h) | (h | h) | ⟨c, _, h⟩ <;> rw [h]
    · exact .inl rfl
    · exact .inl rfl
    · exact .inl rfl
    · exact .inr rfl
    · exact .inr rfl
    · exact .inl (by simp)
  exact hbase.imp head?_of_withoutWide head?_of_withoutWide

/-- The first letter alone often tells that a mnemonic is ordinary. -/
theorem isOrdinary_of_head {mnemonic : String}
    (h : (mnemonic.toList.head?.all fun c => !(['b', 'c', 'm'].contains c)) = true) : isOrdinary mnemonic = true := by
  have hother : ∀ c, mnemonic.toList.head? = some c → c ≠ 'b' ∧ c ≠ 'c' ∧ c ≠ 'm' := by
    intro c hc
    rw [hc] at h
    simpa using h
  refine isOrdinary_iff.2 ⟨Bool.eq_false_iff.2 fun hjump => ?_, Bool.eq_false_iff.2 fun hhalf => ?_⟩
  · rcases head?_of_isJump hjump with hhead | hhead
    · exact (hother _ hhead).1 rfl
    · exact (hother _ hhead).2.1 rfl
  · rcases isHalf_iff.1 hhalf with rfl | rfl
    · exact (hother _ rfl).2.2 rfl
    · exact (hother _ rfl).2.2 rfl

/-- The operands are no matter. -/
theorem isOrdinary_mk {mnemonic : String} {operands : List Operand} (h : isOrdinary mnemonic = true) :
    isOrdinary (Operation.mk mnemonic operands).mnemonic = true := h

/-! ## Groups of one halfword -/

theorem isOrdinary_shiftByCount (hw : Nat) : isOrdinary (shiftByCount hw).mnemonic = true := by
  unfold shiftByCount
  dsimp only
  split
  · exact isOrdinary_mk rfl
  · dsimp only
    split <;> exact isOrdinary_of_head rfl

theorem isOrdinary_addSubtract (hw : Nat) : isOrdinary (addSubtract hw).mnemonic = true := by
  unfold addSubtract
  dsimp only
  split <;> exact isOrdinary_of_head rfl

theorem isOrdinary_withByte (hw : Nat) : isOrdinary (withByte hw).mnemonic = true := by
  unfold withByte
  dsimp only
  split <;> first | exact isOrdinary_of_head rfl | rfl

theorem isOrdinary_betweenLowRegisters (hw : Nat) : isOrdinary (betweenLowRegisters hw).mnemonic = true := by
  show isOrdinary (lowRegisterMnemonic (field hw 6 4)) = true
  unfold lowRegisterMnemonic
  split <;> first | exact isOrdinary_of_head rfl | rfl

theorem isOrdinary_transferIndexed (hw : Nat) : isOrdinary (transferIndexed hw).mnemonic = true := by
  unfold transferIndexed
  dsimp only
  split <;> exact isOrdinary_of_head rfl

theorem isOrdinary_transferDisplaced (hw : Nat) : isOrdinary (transferDisplaced hw).mnemonic = true := by
  unfold transferDisplaced
  dsimp only
  split <;> dsimp only <;> exact isOrdinary_of_head rfl

theorem isOrdinary_hint {hw : Nat} {op : Operation} (h : hint hw = some op) : isOrdinary op.mnemonic = true := by
  unfold hint at h
  dsimp only at h
  split at h
  · split at h <;> cases h <;> exact isOrdinary_mk (isOrdinary_of_head rfl)
  · obtain ⟨c, _, rfl⟩ := Option.map_eq_some_iff.1 h
    exact isOrdinary_of_head (by simp)

/-- **A direct branch in one halfword**, by the fields of its encoding. -/
inductive ShortBranch (hw : Nat) (address : UInt32) : Operation → Prop
  /-- A branch that is always taken. -/
  | always (h : field hw 11 5 = 28) :
    ShortBranch hw address ⟨"b", [.value (counterAt address + extendSign 12 (2 * field hw 0 11))]⟩
  /-- A branch under a condition. -/
  | conditional {c : Condition} (h : field hw 12 4 = 13) (hc : Condition.ofField (field hw 8 4) = some c) :
    ShortBranch hw address ⟨"b" ++ c.name, [.value (counterAt address + extendSign 9 (2 * field hw 0 8))]⟩
  /-- A branch if a register is zero, or if it is not. -/
  | compare (h : field hw 12 4 = 11) (hop : field hw 8 4 ∈ [1, 3, 9, 11]) :
    ShortBranch hw address (compareAndBranch hw (counterAt address))
  /-- A call through a register. -/
  | register : ShortBranch hw address ⟨"blx", [reg (field hw 3 4)]⟩

theorem ordinary_or_shortBranch_betweenAnyRegisters (hw : Nat) (address : UInt32) :
    isOrdinary (betweenAnyRegisters hw).mnemonic = true ∨ ShortBranch hw address (betweenAnyRegisters hw) := by
  unfold betweenAnyRegisters
  dsimp only
  split
  · exact .inl (isOrdinary_mk (isOrdinary_of_head rfl))
  · exact .inl (isOrdinary_mk rfl)
  · exact .inl (isOrdinary_mk rfl)
  · split
    · exact .inr .register
    · exact .inl (isOrdinary_mk rfl)

theorem ordinary_or_shortBranch_miscellaneous {hw : Nat} {address : UInt32} {op : Operation}
    (hgroup : field hw 12 4 = 11) (h : miscellaneous hw (counterAt address) = some op) :
    isOrdinary op.mnemonic = true ∨ ShortBranch hw address op := by
  unfold miscellaneous at h
  -- The cases with a choice of their own come first: the stack, extension, interrupts, reversal and hints.
  split at h
  case h_1 | h_6 =>
    cases h
    left
    dsimp only
    split <;> exact isOrdinary_of_head rfl
  case h_2 hop | h_3 hop | h_4 hop | h_5 hop =>
    cases h
    exact .inr (.compare hgroup (by simp [hop]))
  case h_9 =>
    split at h
    · cases h
      left
      dsimp only
      split <;> rfl
    · cases h
  case h_10 =>
    dsimp only at h
    split at h <;> cases h <;> left <;> exact isOrdinary_mk (isOrdinary_of_head rfl)
  case h_14 => exact .inl (isOrdinary_hint h)
  case h_15 => cases h
  all_goals
    cases h
    first
    | exact .inl (isOrdinary_mk (isOrdinary_of_head rfl))
    | exact .inl (isOrdinary_mk rfl)

theorem ordinary_or_shortBranch_conditionalOrCall {hw : Nat} {address : UInt32} {op : Operation}
    (hgroup : field hw 12 4 = 13) (h : conditionalOrCall hw (counterAt address) = some op) :
    isOrdinary op.mnemonic = true ∨ ShortBranch hw address op := by
  unfold conditionalOrCall at h
  split at h
  · rename_i c hc
    cases h
    exact .inr (.conditional hgroup hc)
  · split at h <;> cases h
    exact .inl (isOrdinary_mk (isOrdinary_of_head rfl))

/-- A field of four bits from the field of five that ends with it. -/
theorem field_twelve_four (hw : Nat) : field hw 12 4 = field hw 11 5 / 2 := by
  simp only [field, Nat.shiftRight_eq_div_pow, Nat.shiftLeft_eq]
  omega

/-- **Encodings of one halfword** are ordinary or direct branches. -/
theorem ordinary_or_shortBranch {hw : Nat} {address : UInt32} {op : Operation} (h : decodeShort hw address = some op) :
    isOrdinary op.mnemonic = true ∨ ShortBranch hw address op := by
  have hgroup := field_twelve_four hw
  unfold decodeShort at h
  dsimp only at h
  split at h
  case h_1 | h_2 | h_3 => cases h; exact .inl (isOrdinary_shiftByCount hw)
  case h_4 => cases h; exact .inl (isOrdinary_addSubtract hw)
  case h_5 | h_6 | h_7 | h_8 => cases h; exact .inl (isOrdinary_withByte hw)
  case h_9 =>
    cases h
    split
    · exact ordinary_or_shortBranch_betweenAnyRegisters hw address
    · exact .inl (isOrdinary_betweenLowRegisters hw)
  case h_10 => cases h; exact .inl (isOrdinary_mk (isOrdinary_of_head rfl))
  case h_11 | h_12 => cases h; exact .inl (isOrdinary_transferIndexed hw)
  case h_13 | h_14 | h_15 | h_16 | h_17 | h_18 => cases h; exact .inl (isOrdinary_transferDisplaced hw)
  case h_19 => cases h; exact .inl (isOrdinary_mk (isOrdinary_of_head rfl))
  case h_20 => cases h; exact .inl (isOrdinary_mk (isOrdinary_of_head rfl))
  case h_21 => cases h; exact .inl (isOrdinary_mk (isOrdinary_of_head rfl))
  case h_22 => cases h; exact .inl (isOrdinary_mk (isOrdinary_of_head rfl))
  case h_23 hfield => exact ordinary_or_shortBranch_miscellaneous (by rw [hgroup, hfield]) h
  case h_24 hfield => exact ordinary_or_shortBranch_miscellaneous (by rw [hgroup, hfield]) h
  case h_25 => cases h; exact .inl (isOrdinary_mk (isOrdinary_of_head rfl))
  case h_26 => cases h; exact .inl (isOrdinary_mk (isOrdinary_of_head rfl))
  case h_27 hfield => exact ordinary_or_shortBranch_conditionalOrCall (by rw [hgroup, hfield]) h
  case h_28 hfield => exact ordinary_or_shortBranch_conditionalOrCall (by rw [hgroup, hfield]) h
  case h_29 hfield =>
    cases h
    exact .inr (.always hfield)
  case h_30 => cases h

/-! ## Groups of two halfwords -/

theorem isOrdinary_notSpelledOut (hw1 hw2 : Nat) : isOrdinary (notSpelledOut hw1 hw2).mnemonic = true :=
  isOrdinary_mk (isOrdinary_of_head rfl)

/-- **A direct branch in two halfwords**, by the fields of its encoding. -/
inductive WideBranch (hw1 hw2 : Nat) (address : UInt32) : Operation → Prop
  /-- A branch under a condition. -/
  | conditional {c : Condition} (hcall : flag hw2 14 = false) (hlong : flag hw2 12 = false)
      (hc : Condition.ofField (field hw1 6 4) = some c) :
    WideBranch hw1 hw2 address ⟨"b" ++ c.name ++ ".w", [.value (counterAt address + conditionalOffset hw1 hw2)]⟩
  /-- A branch that is always taken. -/
  | always (hcall : flag hw2 14 = false) (hlong : flag hw2 12 = true) :
    WideBranch hw1 hw2 address ⟨"b.w", [.value (counterAt address + longOffset hw1 hw2)]⟩
  /-- A call. -/
  | call (hcall : flag hw2 14 = true) (hlong : flag hw2 12 = true) :
    WideBranch hw1 hw2 address ⟨"bl", [.value (counterAt address + longOffset hw1 hw2)]⟩
  /-- A call of code for the other instruction set. -/
  | exchange (hcall : flag hw2 14 = true) (hlong : flag hw2 12 = false) (hlast : flag hw2 0 = false) :
    WideBranch hw1 hw2 address ⟨"blx", [.value (wordPart (counterAt address) + longOffset hw1 hw2)]⟩

theorem ordinary_or_wideBranch_longBranch {hw1 hw2 : Nat} {address : UInt32} {op : Operation}
    (h : longBranch hw1 hw2 (counterAt address) = some op) :
    isOrdinary op.mnemonic = true ∨ WideBranch hw1 hw2 address op := by
  unfold longBranch at h
  split at h
  case h_1 hcall hlong =>
    split at h
    · rename_i c hc
      cases h
      exact .inr (.conditional hcall hlong hc)
    · cases h
      left
      split
      · exact isOrdinary_of_head rfl
      · exact isOrdinary_notSpelledOut hw1 hw2
  case h_2 hcall hlong =>
    cases h
    exact .inr (.always hcall hlong)
  case h_3 hcall hlong =>
    cases h
    exact .inr (.call hcall hlong)
  case h_4 hcall hlong =>
    split at h
    · cases h
    · rename_i hlast
      cases h
      exact .inr (.exchange hcall hlong (Bool.eq_false_iff.2 hlast))

/-- The names of data processing stay ordinary under their marks. -/
theorem isOrdinary_processing {op rn rd : Nat} {setsFlags : Bool} {p : Processing}
    (h : processing op rn rd setsFlags = some p) :
    isOrdinary (p.name ++ (if setsFlags && p.hasTarget then "s" else "") ++ ".w") = true := by
  unfold processing at h
  dsimp only at h
  split at h
  case h_11 => cases h
  all_goals
    cases h
    try split
    all_goals
      dsimp only
      cases setsFlags <;> first | exact isOrdinary_of_head rfl | rfl

theorem isOrdinary_processingOperation (hw1 hw2 : Nat) (last : List Operand) :
    isOrdinary (processingOperation hw1 hw2 last).mnemonic = true := by
  unfold processingOperation
  dsimp only
  split
  · rename_i p hp
    exact isOrdinary_processing hp
  · exact isOrdinary_notSpelledOut hw1 hw2

theorem isOrdinary_transferMultiple (hw1 hw2 : Nat) : isOrdinary (transferMultiple hw1 hw2).mnemonic = true := by
  unfold transferMultiple
  dsimp only
  split
  · split <;> exact isOrdinary_mk (isOrdinary_of_head rfl)
  · exact isOrdinary_mk (isOrdinary_of_head rfl)
  · exact isOrdinary_mk (isOrdinary_of_head rfl)
  · split <;> exact isOrdinary_mk (isOrdinary_of_head rfl)
  · exact isOrdinary_notSpelledOut hw1 hw2

theorem isOrdinary_tableBranch (hw1 hw2 : Nat) : isOrdinary (tableBranch hw1 hw2).mnemonic = true := by
  unfold tableBranch
  dsimp only
  split <;> exact isOrdinary_mk (isOrdinary_of_head rfl)

theorem isOrdinary_transferDual (hw1 hw2 : Nat) : isOrdinary (transferDual hw1 hw2).mnemonic = true := by
  unfold transferDual
  dsimp only
  split <;> exact isOrdinary_of_head rfl

theorem isOrdinary_multiply (hw1 hw2 : Nat) : isOrdinary (multiply hw1 hw2).mnemonic = true := by
  unfold multiply
  dsimp only
  split <;> exact isOrdinary_mk rfl

/-- A load or store of one register is ordinary, whatever mark follows. -/
theorem isOrdinary_singleMnemonic {load signed : Bool} {size : Nat} {mnemonic : String}
    (h : singleMnemonic load signed size = some mnemonic) (mark : String) : isOrdinary (mnemonic ++ mark) = true := by
  unfold singleMnemonic at h
  split at h
  case h_9 => cases h
  case h_1 | h_2 | h_3 | h_4 | h_5 =>
    cases h
    exact isOrdinary_of_head (by simp)
  case h_6 | h_7 | h_8 =>
    cases h
    exact isOrdinary_of_head (by simp)

theorem isOrdinary_transferMoving {hw1 hw2 : Nat} {mnemonic : String}
    (h : ∀ mark, isOrdinary (mnemonic ++ mark) = true) :
    isOrdinary (transferMoving hw1 hw2 mnemonic).mnemonic = true := by
  unfold transferMoving
  dsimp only
  split
  · exact isOrdinary_mk (isOrdinary_of_head rfl)
  split
  · exact isOrdinary_mk (isOrdinary_of_head rfl)
  split
  · exact isOrdinary_notSpelledOut hw1 hw2
  dsimp only
  split
  · exact h "t"
  · simpa using h ""

theorem isOrdinary_transferSingle (hw1 hw2 : Nat) : isOrdinary (transferSingle hw1 hw2).mnemonic = true := by
  unfold transferSingle
  dsimp only
  split
  · exact isOrdinary_notSpelledOut hw1 hw2
  rename_i mnemonic hmnemonic
  have hmarked := isOrdinary_singleMnemonic hmnemonic
  split
  · exact hmarked ".w"
  split
  · exact hmarked ".w"
  split
  · exact isOrdinary_transferMoving hmarked
  split
  · exact hmarked ".w"
  · exact isOrdinary_notSpelledOut hw1 hw2

/-- Operations with a constant are ordinary or load half a word. -/
theorem ordinary_or_half_withPlainConstant (hw1 hw2 : Nat) (counter : UInt32) :
    isOrdinary (withPlainConstant hw1 hw2 counter).mnemonic = true ∨
      isHalf (withPlainConstant hw1 hw2 counter).mnemonic = true ∧
        ∃ r v, (withPlainConstant hw1 hw2 counter).operands = [.register r, .value v] := by
  unfold withPlainConstant
  dsimp only
  split
  · left
    split <;> exact isOrdinary_mk (isOrdinary_of_head rfl)
  · left
    split <;> exact isOrdinary_mk (isOrdinary_of_head rfl)
  · exact .inr ⟨rfl, _, _, rfl⟩
  · exact .inr ⟨rfl, _, _, rfl⟩
  · exact .inl (isOrdinary_notSpelledOut hw1 hw2)

/-- **Encodings of two halfwords** are ordinary, direct branches or loads of half a word. -/
theorem wide_cases {hw1 hw2 : Nat} {address : UInt32} {op : Operation} (h : decodeWide hw1 hw2 address = some op) :
    isOrdinary op.mnemonic = true
      ∨ (field hw1 11 5 = 30 ∧ flag hw2 15 = true ∧ WideBranch hw1 hw2 address op)
      ∨ (isHalf op.mnemonic = true ∧ ∃ r v, op.operands = [.register r, .value v]) := by
  unfold decodeWide at h
  dsimp only at h
  -- The groups in the order of the table. The first one has the branches, the third one the loads.
  split at h
  · rename_i hgroup
    exact (ordinary_or_wideBranch_longBranch h).imp_right fun hbranch => .inl ⟨hgroup.1, hgroup.2, hbranch⟩
  split at h
  · cases h
    exact .inl (isOrdinary_processingOperation hw1 hw2 _)
  split at h
  · cases h
    exact (ordinary_or_half_withPlainConstant hw1 hw2 _).imp_right .inr
  split at h
  · cases h
    exact .inl (isOrdinary_transferMultiple hw1 hw2)
  split at h
  · cases h
    exact .inl (isOrdinary_tableBranch hw1 hw2)
  split at h
  · cases h
    exact .inl (isOrdinary_transferDual hw1 hw2)
  split at h
  · cases h
    exact .inl (isOrdinary_processingOperation hw1 hw2 _)
  split at h
  · cases h
    exact .inl (isOrdinary_transferSingle hw1 hw2)
  split at h
  · cases h
    exact .inl (isOrdinary_multiply hw1 hw2)
  · cases h
    exact .inl (isOrdinary_notSpelledOut hw1 hw2)

/-! ## Instructions -/

/-- **An instruction** is read from one halfword or from two. -/
theorem decode_cases {code : Bytes} {address : UInt32} {i : Instruction} (h : decode code address = some i) :
    (∃ (hw : UInt16) (op : Operation), decodeShort hw.toNat address = some op
      ∧ i = op.toInstruction address (Bytes.ofWord16 hw))
    ∨ ∃ (hw1 hw2 : UInt16) (op : Operation), decodeWide hw1.toNat hw2.toNat address = some op
      ∧ i = op.toInstruction address (Bytes.ofWord16 hw1 ++ Bytes.ofWord16 hw2) := by
  unfold decode at h
  split at h
  · rename_i b0 b1 rest
    dsimp only at h
    split at h
    · split at h
      · rename_i b2 b3 _
        obtain ⟨op, hop, rfl⟩ := Option.map_eq_some_iff.1 h
        refine .inr ⟨Bytes.joinWord16 b0 b1, Bytes.joinWord16 b2 b3, op, hop, ?_⟩
        rw [Bytes.ofWord16_joinWord16, Bytes.ofWord16_joinWord16]
        rfl
      · cases h
    · obtain ⟨op, hop, rfl⟩ := Option.map_eq_some_iff.1 h
      refine .inl ⟨Bytes.joinWord16 b0 b1, op, hop, ?_⟩
      rw [Bytes.ofWord16_joinWord16]
  · cases h

/-- The branches under a condition are known as such, whatever their width. -/
theorem isConditionalJump_condition : ∀ c : Condition,
    isConditionalJump ("b" ++ c.name) = true ∧ isConditionalJump ("b" ++ c.name ++ ".w") = true := by
  decide

theorem isConditionalJump_compareAndBranch (hw : Nat) (counter : UInt32) :
    isConditionalJump (compareAndBranch hw counter).mnemonic = true := by
  unfold compareAndBranch
  dsimp only
  split <;> rfl

theorem isJump_of_isConditionalJump {mnemonic : String} (h : isConditionalJump mnemonic = true) :
    isJump mnemonic = true := by
  unfold isJump
  dsimp only
  rw [h, Bool.or_true]

/-- The call of code for the other instruction set has no condition. -/
theorem ne_blx_of_isConditionalJump {mnemonic : String} (h : isConditionalJump mnemonic = true) :
    mnemonic ≠ "blx" := by
  rintro rfl
  cases h

theorem ShortBranch.isJump {hw : Nat} {address : UInt32} {op : Operation} (h : ShortBranch hw address op) :
    isJump op.mnemonic = true := by
  cases h with
  | always | register => dsimp only; rfl
  | conditional _ _ => exact isJump_of_isConditionalJump (isConditionalJump_condition _).1
  | compare => exact isJump_of_isConditionalJump (isConditionalJump_compareAndBranch _ _)

theorem WideBranch.isJump {hw1 hw2 : Nat} {address : UInt32} {op : Operation} (h : WideBranch hw1 hw2 address op) :
    isJump op.mnemonic = true := by
  cases h with
  | always | call | exchange => dsimp only; rfl
  | conditional _ _ _ => exact isJump_of_isConditionalJump (isConditionalJump_condition _).2

/-- No mnemonic is one of a direct branch and of a load of half a word. -/
theorem isHalf_of_isJump {mnemonic : String} (h : isJump mnemonic = true) : isHalf mnemonic = false := by
  rw [Bool.eq_false_iff]
  intro hhalf
  rcases isHalf_iff.1 hhalf with rfl | rfl <;> cases h

/-- **A direct branch** is one of those of one halfword or of two. -/
theorem jump_cases {code : Bytes} {address : UInt32} {i : Instruction} (h : decode code address = some i)
    (hjump : isJump i.mnemonic = true) :
    (∃ (hw : UInt16) (op : Operation), ShortBranch hw.toNat address op
      ∧ i = op.toInstruction address (Bytes.ofWord16 hw))
    ∨ ∃ (hw1 hw2 : UInt16) (op : Operation), field hw1.toNat 11 5 = 30 ∧ flag hw2.toNat 15 = true
      ∧ WideBranch hw1.toNat hw2.toNat address op
      ∧ i = op.toInstruction address (Bytes.ofWord16 hw1 ++ Bytes.ofWord16 hw2) := by
  rcases decode_cases h with ⟨hw, op, hop, rfl⟩ | ⟨hw1, hw2, op, hop, rfl⟩
  · rcases ordinary_or_shortBranch hop with hordinary | hbranch
    · exact absurd ((isOrdinary_iff.1 hordinary).1.symm.trans hjump) Bool.false_ne_true
    · exact .inl ⟨hw, op, hbranch, rfl⟩
  · rcases wide_cases hop with hordinary | ⟨hgroup, hflag, hbranch⟩ | ⟨hhalf, _⟩
    · exact absurd ((isOrdinary_iff.1 hordinary).1.symm.trans hjump) Bool.false_ne_true
    · exact .inr ⟨hw1, hw2, op, hgroup, hflag, hbranch, rfl⟩
    · exact absurd ((isHalf_of_isJump hjump).symm.trans hhalf) Bool.false_ne_true

/-- **A load of half a word** takes four bytes, and names a register and a value. -/
theorem half_cases {code : Bytes} {address : UInt32} {i : Instruction} (h : decode code address = some i)
    (hhalf : isHalf i.mnemonic = true) :
    i.bytes.length = 4 ∧ ∃ (r : Register) (v : UInt32), i.operands = r.name ++ ", #0x" ++ lowerHex v.toNat := by
  rcases decode_cases h with ⟨hw, op, hop, rfl⟩ | ⟨hw1, hw2, op, hop, rfl⟩
  · rcases ordinary_or_shortBranch hop with hordinary | hbranch
    · exact absurd ((isOrdinary_iff.1 hordinary).2.symm.trans hhalf) Bool.false_ne_true
    · exact absurd ((isHalf_of_isJump hbranch.isJump).symm.trans hhalf) Bool.false_ne_true
  · rcases wide_cases hop with hordinary | ⟨_, _, hbranch⟩ | ⟨_, r, v, hoperands⟩
    · exact absurd ((isOrdinary_iff.1 hordinary).2.symm.trans hhalf) Bool.false_ne_true
    · exact absurd ((isHalf_of_isJump hbranch.isJump).symm.trans hhalf) Bool.false_ne_true
    · refine ⟨rfl, r, v, ?_⟩
      show op.operandText = _
      rw [Operation.operandText, hoperands]
      show r.name ++ ", " ++ ("#0x" ++ lowerHex v.toNat) = _
      rw [String.append_assoc, String.append_assoc]
      rfl

end BinaryPatching.Thumb
