import BinaryPatching.Thumb.Decode

/-!
# `BinaryPatching.Proofs.Thumb.Vocabulary` — what decoded operations are made of

Whatever the decoder makes of an encoding has a mnemonic in small letters and operands with small numbers. With one
lemma for each group of the encoding table that says so, nothing that is asked of the spelling of instructions has to go
through the table again.

## Contents
- `isMnemonic`, `IsDecodedMnemonic`: mnemonics.
- `Operand.isSmall`, `Operation.showsBits`, `Operation.isRegular`: operands and operations.
- `isRegular_decodeShort`: encodings of one halfword, after one lemma for each group.
- `isRegular_decodeWide`: encodings of two halfwords, likewise.
- `exists_regular_of_decode`: instructions.
-/

namespace BinaryPatching.Thumb

open Text

/-! ## Mnemonics and operands -/

/-- A character that names go on with: a small letter or a digit. -/
def isPlain (c : Char) : Bool := c.isLower || c.isDigit

/-- A character that mnemonics go on with: points as well. -/
def continuesMnemonic (c : Char) : Bool := isPlain c || c == '.'

/-- Whether a text is that of a mnemonic: a small letter, and small letters, digits and points behind it. The letter `r`
alone would be that of a wildcard in patterns. -/
def isPlainMnemonic : List Char → Bool
  | [] => false
  | c :: rest => c.isLower && (c != 'r' || !rest.isEmpty) && rest.all continuesMnemonic

/-- **The mnemonics of the table**, but for that of the encodings which are shown by their bits. -/
def isMnemonic (mnemonic : String) : Bool := isPlainMnemonic mnemonic.toList

/-- What a mnemonic of the table is. -/
theorem exists_of_isMnemonic {mnemonic : String} (h : isMnemonic mnemonic = true) :
    ∃ c rest, mnemonic.toList = c :: rest ∧ c.isLower = true ∧ ∀ d ∈ rest, continuesMnemonic d = true := by
  unfold isMnemonic at h
  cases hm : mnemonic.toList with
  | nil =>
    rw [hm] at h
    cases h
  | cons c rest =>
    rw [hm, isPlainMnemonic, Bool.and_eq_true, Bool.and_eq_true, List.all_eq_true] at h
    obtain ⟨⟨hlower, _⟩, hrest⟩ := h
    exact ⟨c, rest, rfl, hlower, hrest⟩

/-- **The mnemonics of decoded instructions**: those of the table, and that of the encodings shown by their bits. -/
def IsDecodedMnemonic (mnemonic : String) : Prop := isMnemonic mnemonic = true ∨ mnemonic = ".inst.w"

/-- They are spelled in small letters, digits and points. -/
theorem IsDecodedMnemonic.forall_mem {mnemonic : String} (h : IsDecodedMnemonic mnemonic) :
    ∀ c ∈ mnemonic.toList, continuesMnemonic c = true := by
  rcases h with h | rfl
  · obtain ⟨first, rest, hlist, hfirst, hrest⟩ := exists_of_isMnemonic h
    rw [hlist]
    intro c hc
    rcases List.mem_cons.1 hc with rfl | hc
    · rw [continuesMnemonic, isPlain, hfirst]
      rfl
    · exact hrest c hc
  · exact List.all_eq_true.1 rfl

/-- **The numbers and letters of operands.** Only values and encodings, which are words, can be large. -/
def Operand.isSmall : Operand → Bool
  | .count n => n ≤ 32
  | .displacement d => d.distance < 4096
  | .memory _ (.displacement d) _ => d.distance < 4096
  | .memory _ (.scaled _ places) _ => places ≤ 32
  | .shift _ amount => amount ≤ 32
  | .masks letters => letters.toList.all Char.isLower
  | _ => true

/-- Whether an operation shows an encoding by its bits. -/
def Operation.showsBits (op : Operation) : Bool :=
  op.mnemonic == ".inst.w" &&
    match op.operands with
    | [.encoding _] => true
    | _ => false

theorem exists_encoding_of_showsBits {op : Operation} (h : op.showsBits = true) :
    op.mnemonic = ".inst.w" ∧ ∃ w, op.operands = [.encoding w] := by
  obtain ⟨hmnemonic, hoperands⟩ := Bool.and_eq_true_iff.1 h
  refine ⟨beq_iff_eq.1 hmnemonic, ?_⟩
  split at hoperands
  · exact ⟨_, ‹_›⟩
  · cases hoperands

/-- **The operations of the table**: mnemonics and operands of these kinds, or the bits of the encoding. -/
def Operation.isRegular (op : Operation) : Bool :=
  op.showsBits || (isMnemonic op.mnemonic && op.operands.all Operand.isSmall)

theorem isRegular_mk {mnemonic : String} {operands : List Operand} (hmnemonic : isMnemonic mnemonic = true)
    (hoperands : operands.all Operand.isSmall = true) : (Operation.mk mnemonic operands).isRegular = true := by
  rw [Operation.isRegular, hmnemonic, hoperands]
  exact Bool.or_true _

theorem isSmall_count {n : Nat} (h : n ≤ 32) : (Operand.count n).isSmall = true := decide_eq_true h

theorem isSmall_displaced (base : Register) {distance : Nat} (h : distance < 4096) :
    (displaced base distance).isSmall = true := decide_eq_true h

/-- A displacement that may be left out. -/
theorem isSmall_displacedUnlessZero (base : Register) {distance : Nat} (h : distance < 4096) :
    (displacedUnlessZero base distance).isSmall = true := by
  unfold displacedUnlessZero
  split
  · rfl
  · exact isSmall_displaced base h

/-! ## Groups of one halfword -/

theorem isRegular_shiftByCount (hw : Nat) : (shiftByCount hw).isRegular = true := by
  have hcount : field hw 6 5 < 32 := field_lt hw 6 5
  unfold shiftByCount
  dsimp only
  split
  · exact isRegular_mk rfl rfl
  · refine isRegular_mk ?_ ?_
    · split <;> rfl
    · rw [List.all_cons, List.all_cons, List.all_cons, isSmall_count (by split <;> omega)]
      rfl

theorem isRegular_addSubtract (hw : Nat) : (addSubtract hw).isRegular = true := by
  unfold addSubtract
  dsimp only
  split <;> split <;> exact isRegular_mk rfl rfl

theorem isRegular_withByte (hw : Nat) : (withByte hw).isRegular = true := by
  unfold withByte
  dsimp only
  split <;> exact isRegular_mk rfl rfl

theorem isMnemonic_lowRegisterMnemonic (op : Nat) : isMnemonic (lowRegisterMnemonic op) = true := by
  unfold lowRegisterMnemonic
  split <;> rfl

theorem isRegular_betweenLowRegisters (hw : Nat) : (betweenLowRegisters hw).isRegular = true := by
  refine isRegular_mk (isMnemonic_lowRegisterMnemonic _) ?_
  split
  · rfl
  · split <;> rfl

theorem isRegular_betweenAnyRegisters (hw : Nat) : (betweenAnyRegisters hw).isRegular = true := by
  unfold betweenAnyRegisters
  dsimp only
  split
  · exact isRegular_mk rfl rfl
  · exact isRegular_mk rfl rfl
  · exact isRegular_mk rfl rfl
  · split <;> exact isRegular_mk rfl rfl

theorem isRegular_transferIndexed (hw : Nat) : (transferIndexed hw).isRegular = true := by
  unfold transferIndexed
  dsimp only
  split <;> exact isRegular_mk rfl rfl

theorem isRegular_transferDisplaced (hw : Nat) : (transferDisplaced hw).isRegular = true := by
  have hcount : field hw 6 5 < 32 := field_lt hw 6 5
  have hsmall : ∀ mnemonic : String, isMnemonic mnemonic = true → ∀ distance < 4096,
      (Operation.mk mnemonic [reg (field hw 0 3),
        displacedUnlessZero (Register.ofField (field hw 3 3)) distance]).isRegular = true := by
    intro mnemonic hmnemonic distance hdistance
    refine isRegular_mk hmnemonic ?_
    rw [List.all_cons, List.all_cons, isSmall_displacedUnlessZero _ hdistance]
    rfl
  unfold transferDisplaced
  dsimp only
  split <;> dsimp only <;> exact hsmall _ rfl _ (by omega)

/-- The letters of a conditional block are two. -/
theorem isPlain_itLetters (condition mask : Nat) : ∀ c ∈ (itLetters condition mask).toList, isPlain c = true := by
  intro c hc
  rw [itLetters, String.toList_ofList] at hc
  obtain ⟨bit, _, rfl⟩ := List.mem_map.1 hc
  split <;> rfl

theorem isRegular_hint {hw : Nat} {op : Operation} (h : hint hw = some op) : op.isRegular = true := by
  unfold hint at h
  dsimp only at h
  split at h
  · split at h <;> cases h <;> exact isRegular_mk rfl rfl
  · obtain ⟨c, _, rfl⟩ := Option.map_eq_some_iff.1 h
    refine isRegular_mk ?_ rfl
    have hletters : ("it" ++ itLetters (field hw 4 4) (field hw 0 4)).toList
        = 'i' :: 't' :: (itLetters (field hw 4 4) (field hw 0 4)).toList := by
      rw [String.toList_append]
      rfl
    have hall : (itLetters (field hw 4 4) (field hw 0 4)).toList.all continuesMnemonic = true :=
      List.all_eq_true.2 fun c hc => Bool.or_eq_true_iff.2 (.inl (isPlain_itLetters _ _ c hc))
    rw [isMnemonic, hletters, isPlainMnemonic, List.all_cons, hall]
    rfl

/-- The letters of interrupt masks are three. -/
theorem isSmall_masks (hw : Nat) : (Operand.masks (maskLetters hw)).isSmall = true := by
  show (maskLetters hw).toList.all Char.isLower = true
  unfold maskLetters
  split <;> split <;> split <;> rfl

theorem isRegular_compareAndBranch (hw : Nat) (counter : UInt32) : (compareAndBranch hw counter).isRegular = true := by
  unfold compareAndBranch
  dsimp only
  split <;> exact isRegular_mk rfl rfl

theorem isRegular_miscellaneous {hw : Nat} {counter : UInt32} {op : Operation}
    (h : miscellaneous hw counter = some op) : op.isRegular = true := by
  unfold miscellaneous at h
  -- The cases with a choice of their own come first: the stack, extension, interrupts, reversal and hints.
  split at h
  case h_1 | h_6 =>
    cases h
    refine isRegular_mk ?_ rfl
    split <;> rfl
  case h_2 | h_3 | h_4 | h_5 =>
    cases h
    exact isRegular_compareAndBranch hw counter
  case h_9 =>
    split at h
    · cases h
      refine isRegular_mk ?_ ?_
      · split <;> rfl
      · rw [List.all_cons, isSmall_masks]
        rfl
    · cases h
  case h_10 =>
    dsimp only at h
    split at h <;> cases h <;> exact isRegular_mk rfl rfl
  case h_14 => exact isRegular_hint h
  case h_15 => cases h
  all_goals
    cases h
    exact isRegular_mk rfl rfl

/-- The mnemonics of branches under a condition, with and without the mark of a wide encoding. -/
theorem isMnemonic_condition : ∀ c : Condition,
    isMnemonic ("b" ++ c.name) = true ∧ isMnemonic ("b" ++ c.name ++ ".w") = true := by
  decide +kernel

theorem isRegular_conditionalOrCall {hw : Nat} {counter : UInt32} {op : Operation}
    (h : conditionalOrCall hw counter = some op) : op.isRegular = true := by
  unfold conditionalOrCall at h
  split at h
  · cases h
    exact isRegular_mk (isMnemonic_condition _).1 rfl
  · split at h <;> cases h
    exact isRegular_mk rfl rfl

/-- **Encodings of one halfword** are regular. -/
theorem isRegular_decodeShort {hw : Nat} {address : UInt32} {op : Operation} (h : decodeShort hw address = some op) :
    op.isRegular = true := by
  have hbyte : field hw 0 8 < 256 := field_lt hw 0 8
  have hdisplaced : ∀ mnemonic : String, isMnemonic mnemonic = true → ∀ base : Register,
      (Operation.mk mnemonic [reg (field hw 8 3), displaced base (4 * field hw 0 8)]).isRegular = true := by
    intro mnemonic hmnemonic base
    refine isRegular_mk hmnemonic ?_
    rw [List.all_cons, List.all_cons, isSmall_displaced base (by omega)]
    rfl
  unfold decodeShort at h
  dsimp only at h
  split at h
  case h_1 | h_2 | h_3 => cases h; exact isRegular_shiftByCount hw
  case h_4 => cases h; exact isRegular_addSubtract hw
  case h_5 | h_6 | h_7 | h_8 => cases h; exact isRegular_withByte hw
  case h_9 =>
    cases h
    split
    · exact isRegular_betweenAnyRegisters hw
    · exact isRegular_betweenLowRegisters hw
  case h_10 | h_19 | h_20 => cases h; exact hdisplaced _ rfl _
  case h_11 | h_12 => cases h; exact isRegular_transferIndexed hw
  case h_13 | h_14 | h_15 | h_16 | h_17 | h_18 => cases h; exact isRegular_transferDisplaced hw
  case h_23 | h_24 => exact isRegular_miscellaneous h
  case h_26 =>
    cases h
    refine isRegular_mk rfl ?_
    rw [List.all_cons]
    split <;> rfl
  case h_27 | h_28 => exact isRegular_conditionalOrCall h
  case h_30 => cases h
  all_goals
    cases h
    exact isRegular_mk rfl rfl

/-! ## Groups of two halfwords -/

theorem isRegular_notSpelledOut (hw1 hw2 : Nat) : (notSpelledOut hw1 hw2).isRegular = true := rfl

theorem isRegular_longBranch {hw1 hw2 : Nat} {counter : UInt32} {op : Operation}
    (h : longBranch hw1 hw2 counter = some op) : op.isRegular = true := by
  unfold longBranch at h
  split at h
  · split at h
    · cases h
      exact isRegular_mk (isMnemonic_condition _).2 rfl
    · cases h
      split
      · exact isRegular_mk rfl rfl
      · exact isRegular_notSpelledOut hw1 hw2
  · cases h
    exact isRegular_mk rfl rfl
  · cases h
    exact isRegular_mk rfl rfl
  · split at h <;> cases h
    exact isRegular_mk rfl rfl

/-- The names of data processing with their marks. -/
theorem isMnemonic_processing {op rn rd : Nat} {setsFlags : Bool} {p : Processing}
    (h : processing op rn rd setsFlags = some p) :
    isMnemonic (p.name ++ (if setsFlags && p.hasTarget then "s" else "") ++ ".w") = true := by
  unfold processing at h
  dsimp only at h
  split at h
  case h_11 => cases h
  all_goals
    cases h
    try split
    all_goals
      cases setsFlags <;> rfl

theorem isRegular_processingOperation {last : List Operand} (hlast : last.all Operand.isSmall = true)
    (hw1 hw2 : Nat) : (processingOperation hw1 hw2 last).isRegular = true := by
  unfold processingOperation
  dsimp only
  split
  · rename_i p hp
    refine isRegular_mk (isMnemonic_processing hp) ?_
    rw [List.all_append, List.all_append, hlast]
    split <;> split <;> rfl
  · exact isRegular_notSpelledOut hw1 hw2

theorem isRegular_withExpandedConstant (hw1 hw2 : Nat) : (withExpandedConstant hw1 hw2).isRegular = true :=
  isRegular_processingOperation rfl hw1 hw2

theorem isSmall_shiftOperands (kind : Nat) {amount : Nat} (h : amount < 32) :
    (shiftOperands kind amount).all Operand.isSmall = true := by
  have hsmall : ∀ (kind : Shift) (n : Nat), n ≤ 32 → [Operand.shift kind n].all Operand.isSmall = true := by
    intro kind n hn
    rw [List.all_cons, Operand.isSmall, decide_eq_true hn]
    rfl
  unfold shiftOperands
  split
  · split
    · rfl
    · exact hsmall _ _ (by omega)
  · exact hsmall _ _ (by split <;> omega)
  · exact hsmall _ _ (by split <;> omega)
  · split
    · rfl
    · exact hsmall _ _ (by omega)

theorem isRegular_withShiftedRegister (hw1 hw2 : Nat) : (withShiftedRegister hw1 hw2).isRegular = true := by
  have hhigh : field hw2 12 3 < 8 := field_lt hw2 12 3
  have hlow : field hw2 6 2 < 4 := field_lt hw2 6 2
  refine isRegular_processingOperation ?_ hw1 hw2
  rw [List.all_cons, isSmall_shiftOperands _ (by omega)]
  rfl

theorem isRegular_withPlainConstant (hw1 hw2 : Nat) (counter : UInt32) :
    (withPlainConstant hw1 hw2 counter).isRegular = true := by
  unfold withPlainConstant
  dsimp only
  split
  · split <;> exact isRegular_mk rfl rfl
  · split <;> exact isRegular_mk rfl rfl
  · exact isRegular_mk rfl rfl
  · exact isRegular_mk rfl rfl
  · exact isRegular_notSpelledOut hw1 hw2

theorem isRegular_multiply (hw1 hw2 : Nat) : (multiply hw1 hw2).isRegular = true := by
  unfold multiply
  dsimp only
  split <;> exact isRegular_mk rfl rfl

theorem isRegular_transferMultiple (hw1 hw2 : Nat) : (transferMultiple hw1 hw2).isRegular = true := by
  have hplace (base : Register) (moves : Bool) :
      (if moves then Operand.moved base else .register base).isSmall = true := by
    cases moves <;> rfl
  have hoperands (mnemonic : String) (hmnemonic : isMnemonic mnemonic = true) (base : Register) (moves : Bool) :
      (Operation.mk mnemonic [if moves then Operand.moved base else .register base,
        .registers (Register.ofMask hw2)]).isRegular = true := by
    refine isRegular_mk hmnemonic ?_
    rw [List.all_cons, hplace]
    rfl
  unfold transferMultiple
  dsimp only
  split
  · split
    · exact isRegular_mk rfl rfl
    · exact hoperands _ rfl _ _
  · exact hoperands _ rfl _ _
  · exact hoperands _ rfl _ _
  · split
    · exact isRegular_mk rfl rfl
    · exact hoperands _ rfl _ _
  · exact isRegular_notSpelledOut hw1 hw2

theorem isRegular_tableBranch (hw1 hw2 : Nat) : (tableBranch hw1 hw2).isRegular = true := by
  unfold tableBranch
  dsimp only
  split <;> exact isRegular_mk rfl rfl

theorem isSmall_movingOperands (base : Register) {d : Displacement} (h : d.distance < 4096) (before moves : Bool) :
    (movingOperands base d before moves).all Operand.isSmall = true := by
  cases before <;> simp [movingOperands, Operand.isSmall, h]

theorem isRegular_transferDual (hw1 hw2 : Nat) : (transferDual hw1 hw2).isRegular = true := by
  have hbyte : field hw2 0 8 < 256 := field_lt hw2 0 8
  refine isRegular_mk ?_ ?_
  · split <;> rfl
  · rw [List.all_append, isSmall_movingOperands _ (show 4 * field hw2 0 8 < 4096 by omega)]
    rfl

/-- The mnemonics of loads and stores of one register, with the marks that can follow. -/
theorem isMnemonic_singleMnemonic {load signed : Bool} {size : Nat} {mnemonic : String}
    (h : singleMnemonic load signed size = some mnemonic) :
    isMnemonic mnemonic = true ∧ isMnemonic (mnemonic ++ "t") = true ∧ isMnemonic (mnemonic ++ ".w") = true := by
  unfold singleMnemonic at h
  split at h <;> cases h <;> exact ⟨rfl, rfl, rfl⟩

theorem isRegular_transferMoving (hw1 hw2 : Nat) {mnemonic : String} (h : isMnemonic mnemonic = true)
    (ht : isMnemonic (mnemonic ++ "t") = true) : (transferMoving hw1 hw2 mnemonic).isRegular = true := by
  have hbyte : field hw2 0 8 < 256 := field_lt hw2 0 8
  unfold transferMoving
  dsimp only
  split
  · exact isRegular_mk rfl rfl
  split
  · exact isRegular_mk rfl rfl
  split
  · exact isRegular_notSpelledOut hw1 hw2
  · refine isRegular_mk ?_ ?_
    · split
      · exact ht
      · exact h
    · rw [List.all_cons, isSmall_movingOperands _ (show field hw2 0 8 < 4096 by omega)]
      rfl

theorem isRegular_transferSingle (hw1 hw2 : Nat) : (transferSingle hw1 hw2).isRegular = true := by
  have hdistance : field hw2 0 12 < 4096 := field_lt hw2 0 12
  have hscale : field hw2 4 2 < 4 := field_lt hw2 4 2
  unfold transferSingle
  dsimp only
  split
  · exact isRegular_notSpelledOut hw1 hw2
  rename_i mnemonic hmnemonic
  obtain ⟨hplain, ht, hwide⟩ := isMnemonic_singleMnemonic hmnemonic
  split
  · refine isRegular_mk hwide ?_
    rw [List.all_cons, List.all_cons, Operand.isSmall, decide_eq_true hdistance]
    rfl
  split
  · refine isRegular_mk hwide ?_
    rw [List.all_cons, List.all_cons, isSmall_displacedUnlessZero _ hdistance]
    rfl
  split
  · exact isRegular_transferMoving hw1 hw2 hplain ht
  split
  · refine isRegular_mk hwide ?_
    split
    · rfl
    · rw [List.all_cons, List.all_cons, Operand.isSmall, decide_eq_true (show field hw2 4 2 ≤ 32 by omega)]
      rfl
  · exact isRegular_notSpelledOut hw1 hw2

/-- **Encodings of two halfwords** are regular. -/
theorem isRegular_decodeWide {hw1 hw2 : Nat} {address : UInt32} {op : Operation}
    (h : decodeWide hw1 hw2 address = some op) : op.isRegular = true := by
  unfold decodeWide at h
  dsimp only at h
  split at h
  · exact isRegular_longBranch h
  split at h
  · cases h; exact isRegular_withExpandedConstant hw1 hw2
  split at h
  · cases h; exact isRegular_withPlainConstant hw1 hw2 _
  split at h
  · cases h; exact isRegular_transferMultiple hw1 hw2
  split at h
  · cases h; exact isRegular_tableBranch hw1 hw2
  split at h
  · cases h; exact isRegular_transferDual hw1 hw2
  split at h
  · cases h; exact isRegular_withShiftedRegister hw1 hw2
  split at h
  · cases h; exact isRegular_transferSingle hw1 hw2
  split at h
  · cases h; exact isRegular_multiply hw1 hw2
  · cases h; exact isRegular_notSpelledOut hw1 hw2

/-! ## Instructions -/

/-- **Whatever is decoded is regular.** -/
theorem exists_regular_of_decode {code : Bytes} {address : UInt32} {i : Instruction}
    (h : decode code address = some i) :
    ∃ op : Operation, op.isRegular = true ∧ i.mnemonic = op.mnemonic ∧ i.operands = op.operandText := by
  unfold decode at h
  split at h
  · dsimp only at h
    split at h
    · split at h
      · obtain ⟨op, hop, rfl⟩ := Option.map_eq_some_iff.1 h
        exact ⟨op, isRegular_decodeWide hop, rfl, rfl⟩
      · cases h
    · obtain ⟨op, hop, rfl⟩ := Option.map_eq_some_iff.1 h
      exact ⟨op, isRegular_decodeShort hop, rfl, rfl⟩
  · cases h

end BinaryPatching.Thumb
