import BinaryPatching.Proofs.Text.Hexadecimal
import BinaryPatching.Proofs.Thumb.Vocabulary

/-!
# `BinaryPatching.Proofs.Thumb.Spelling` — how decoded operands are spelled

Operands are names and numbers with marks between them. A word ends at a mark or with the text, so that the words of a
text can be told apart by whoever reads it. Both the spelling of an operand and the plain names of registers keep to
that form.

## Contents
- `isName`, `isNumber`, `marks`: words, and what stands between them.
- `Spelled`: texts of that form, with `Spelled.append` and `Spelled.forall_mem`.
- `spelled_text`, `spelled_operandText`: operands.
- `Spelled.withPlainRegisters`: the plain names of registers.
- `isMnemonic_or_of_decode`, `spelled_withPlainRegisters_of_decode`: instructions.
-/

namespace BinaryPatching.Thumb

open Text

/-! ## Words and marks -/

/-- **A name**: a small letter, and small letters and digits behind it. -/
def isName : List Char → Bool
  | [] => false
  | c :: rest => c.isLower && rest.all isPlain

/-- **A number**, without its mark and its sign: a digit, and small letters and digits behind it which make it one. -/
def isNumber (word : List Char) : Bool :=
  word.head?.any Char.isDigit && word.all isPlain && (parseNumber (String.ofList word)).isSome

/-- What stands between words. -/
def marks : List Char := [' ', ',', '[', ']', '\x7b', '\x7d', '!']

/-- Whether a word in front of a text would end there: the text is empty, or goes on with a mark. -/
def endsWord (rest : List Char) : Bool := rest.head?.all marks.contains

/-- What holds of all marks holds of a mark. -/
theorem of_mark {p : Char → Bool} (hp : marks.all p = true) {c : Char} (h : marks.contains c = true) : p c = true :=
  List.all_eq_true.1 hp c (List.contains_iff_mem.1 h)

theorem not_of_mark {p : Char → Bool} (hp : marks.any p = false) {c : Char} (h : marks.contains c = true) :
    p c = false :=
  Bool.eq_false_iff.2 (List.any_eq_false.1 hp c (List.contains_iff_mem.1 h))

theorem isPlain_of_isName {word : List Char} (h : isName word = true) : ∀ c ∈ word, isPlain c = true := by
  cases word with
  | nil => cases h
  | cons first rest =>
    obtain ⟨hfirst, hrest⟩ := Bool.and_eq_true_iff.1 h
    intro c hc
    rcases List.mem_cons.1 hc with rfl | hc
    · exact Bool.or_eq_true_iff.2 (.inl hfirst)
    · exact List.all_eq_true.1 hrest c hc

/-- What a number is. -/
theorem isNumber_iff {word : List Char} :
    isNumber word = true ↔ word.head?.any Char.isDigit = true ∧ (∀ c ∈ word, isPlain c = true) ∧
      (parseNumber (String.ofList word)).isSome = true := by
  rw [isNumber, Bool.and_eq_true, Bool.and_eq_true, List.all_eq_true, and_assoc]

/-- Letters and digits are characters of ASCII. -/
theorem toNat_of_isPlain {c : Char} (h : isPlain c = true) :
    (0x61 ≤ c.toNat ∧ c.toNat ≤ 0x7A) ∨ (0x30 ≤ c.toNat ∧ c.toNat ≤ 0x39) := by
  rcases Bool.or_eq_true_iff.1 h with hlower | hdigit
  · obtain ⟨hlow, hhigh⟩ := Bool.and_eq_true_iff.1 hlower
    exact .inl ⟨of_decide_eq_true hlow, of_decide_eq_true hhigh⟩
  · obtain ⟨hlow, hhigh⟩ := Bool.and_eq_true_iff.1 hdigit
    exact .inr ⟨of_decide_eq_true hlow, of_decide_eq_true hhigh⟩

theorem isAlphanum_of_isPlain {c : Char} (h : isPlain c = true) : c.isAlphanum = true := by
  show (c.isUpper || c.isLower || c.isDigit) = true
  rw [Bool.or_assoc]
  exact Bool.or_eq_true_iff.2 (.inr h)

theorem isBlank_of_isPlain {c : Char} (h : isPlain c = true) : isBlank c = false := by
  have hrange := toNat_of_isPlain h
  simp only [isBlank, Bool.or_eq_false_iff, Bool.and_eq_false_iff, decide_eq_false_iff_not, beq_eq_false_iff_ne]
  omega

/-- The end of a word is that of the first of two texts, unless there is nothing in it. -/
theorem endsWord_append {as bs : List Char} (ha : endsWord as = true) (hb : endsWord bs = true) :
    endsWord (as ++ bs) = true := by
  cases as with
  | nil => exact hb
  | cons a as => exact ha

/-! ## Texts -/

/-- **A text of names and numbers** with marks between them. A number stands behind its mark `#` and may have a sign. -/
inductive Spelled : List Char → Prop where
  /-- The empty text. -/
  | nil : Spelled []
  /-- A mark. -/
  | mark {c : Char} {rest : List Char} (hmark : marks.contains c = true) (hrest : Spelled rest) : Spelled (c :: rest)
  /-- A name that ends. -/
  | name {word rest : List Char} (hword : isName word = true) (hend : endsWord rest = true) (hrest : Spelled rest) :
    Spelled (word ++ rest)
  /-- A number that ends. -/
  | number {sign word rest : List Char} (hsign : sign = [] ∨ sign = ['-']) (hword : isNumber word = true)
    (hend : endsWord rest = true) (hrest : Spelled rest) : Spelled ('#' :: (sign ++ word ++ rest))

/-- Spelled texts follow one another when the second ends the first. -/
theorem Spelled.append {as bs : List Char} (ha : Spelled as) (hb : Spelled bs) (hend : endsWord bs = true) :
    Spelled (as ++ bs) := by
  -- A word of the first text ends where it did, or at the second text if it was the last one.
  induction ha with
  | nil => exact hb
  | mark hmark _ ih => exact .mark hmark ih
  | name hword hrest _ ih =>
    rw [List.append_assoc]
    exact .name hword (endsWord_append hrest hend) ih
  | number hsign hword hrest _ ih =>
    rw [List.cons_append, List.append_assoc]
    exact .number hsign hword (endsWord_append hrest hend) ih

/-- Marks can stand in front of any text. -/
theorem Spelled.marks_append {as bs : List Char} (ha : as.all marks.contains = true) (hb : Spelled bs) :
    Spelled (as ++ bs) := by
  induction as with
  | nil => exact hb
  | cons a as ih =>
    obtain ⟨hmark, hrest⟩ := Bool.and_eq_true_iff.1 ha
    exact .mark hmark (ih hrest)

theorem spelled_marks {cs : List Char} (h : cs.all marks.contains = true) : Spelled cs := by
  have hcs := Spelled.marks_append h .nil
  rwa [List.append_nil] at hcs

theorem spelled_name {word : List Char} (h : isName word = true) : Spelled word := by
  have hword := Spelled.name h rfl .nil
  rwa [List.append_nil] at hword

theorem spelled_number {sign word : List Char} (hsign : sign = [] ∨ sign = ['-']) (h : isNumber word = true) :
    Spelled ('#' :: (sign ++ word)) := by
  have hword := Spelled.number hsign h rfl .nil
  rwa [List.append_nil] at hword

/-- **What holds of all characters** of words and marks holds of those of a spelled text. -/
theorem Spelled.forall_mem {p : Char → Bool} (hplain : ∀ c, isPlain c = true → p c = true)
    (hmarks : ('#' :: '-' :: marks).all p = true) {cs : List Char} (h : Spelled cs) : ∀ c ∈ cs, p c = true := by
  rw [List.all_cons, List.all_cons, Bool.and_eq_true, Bool.and_eq_true] at hmarks
  obtain ⟨hnumber, hminus, hmarks⟩ := hmarks
  induction h with
  | nil => exact fun c hc => absurd hc List.not_mem_nil
  | mark hmark _ ih =>
    intro c hc
    rcases List.mem_cons.1 hc with rfl | hc
    · exact of_mark hmarks hmark
    · exact ih c hc
  | name hword _ _ ih =>
    intro c hc
    rcases List.mem_append.1 hc with hc | hc
    · exact hplain c (isPlain_of_isName hword c hc)
    · exact ih c hc
  | number hsign hword _ _ ih =>
    intro c hc
    rcases List.mem_cons.1 hc with rfl | hc
    · exact hnumber
    rcases List.mem_append.1 hc with hc | hc
    · rcases List.mem_append.1 hc with hc | hc
      · rcases hsign with rfl | rfl
        · cases hc
        · rw [List.mem_singleton.1 hc]
          exact hminus
      · exact hplain c ((isNumber_iff.1 hword).2.1 c hc)
    · exact ih c hc

/-- Spelled texts between commas. -/
theorem spelled_intercalate {texts : List String} (h : ∀ text ∈ texts, Spelled text.toList) :
    Spelled (", ".intercalate texts).toList := by
  induction texts with
  | nil => exact .nil
  | cons first rest ih =>
    have hfirst := h first List.mem_cons_self
    have hrest := ih fun text htext => h text (List.mem_cons_of_mem _ htext)
    cases rest with
    | nil => exact hfirst
    | cons second rest =>
      rw [String.intercalate_cons_cons, String.toList_append, String.toList_append, List.append_assoc]
      exact hfirst.append (.marks_append rfl hrest) rfl

/-! ## Numbers -/

/-- A digit of a number is plain. -/
theorem isPlain_toDigits (n : Nat) : ∀ c ∈ Nat.toDigits 16 n, isPlain c = true :=
  forall_mem_toDigits (p := (isPlain · = true)) (by decide) n

/-- Digits behind the mark of hexadecimal numbers. -/
theorem isNumber_of_readDigits {digits : List Char} {n : Nat} (hdigits : digits ≠ [])
    (hplain : ∀ c ∈ digits, isPlain c = true) (h : readDigits 16 0 digits = some n) (hn : n < 0x8000000000000000) :
    isNumber ('0' :: 'x' :: digits) = true := by
  have hall : ∀ c ∈ '0' :: 'x' :: digits, isPlain c = true := by
    intro c hc
    rcases List.mem_cons.1 hc with rfl | hc
    · rfl
    rcases List.mem_cons.1 hc with rfl | hc
    · rfl
    · exact hplain c hc
  refine isNumber_iff.2 ⟨rfl, hall, ?_⟩
  rw [parseNumber_of_readDigits hdigits (fun c hc => isBlank_of_isPlain (hall c hc)) h hn]
  rfl

theorem isNumber_toDigits {n : Nat} (hn : n < 0x8000000000000000) :
    isNumber ('0' :: 'x' :: Nat.toDigits 16 n) = true :=
  isNumber_of_readDigits (toDigits_ne_nil n) (isPlain_toDigits n) (readDigits_toDigits n) hn

/-- All eight digits of a word. -/
theorem isNumber_lowerHex8 (w : UInt32) : isNumber ('0' :: 'x' :: (lowerHex8 w).toList) = true := by
  have hlt := w.toNat_lt
  rw [lowerHex8, String.toList_ofList, List.leftpad]
  refine isNumber_of_readDigits (n := w.toNat) (List.append_ne_nil_of_right_ne_nil _ (toDigits_ne_nil _)) ?_ ?_
    (by omega)
  · intro c hc
    rcases List.mem_append.1 hc with hc | hc
    · rw [(List.mem_replicate.1 hc).2]
      rfl
    · exact isPlain_toDigits _ c hc
  · rw [readDigits_replicate, readDigits_toDigits]

/-- The counts that operands can have. -/
theorem isNumber_decimal {n : Nat} (hn : n ≤ 32) : isNumber (decimal n).toList = true := by
  have hall : ∀ n < 33, isNumber (decimal n).toList = true := by decide +kernel
  exact hall n (by omega)

theorem spelled_lowerHex {n : Nat} (hn : n < 0x8000000000000000) : Spelled ("#0x" ++ lowerHex n).toList := by
  rw [String.toList_append, toList_lowerHex]
  show Spelled ('#' :: ([] ++ ('0' :: 'x' :: Nat.toDigits 16 n)))
  exact spelled_number (.inl rfl) (isNumber_toDigits hn)

theorem spelled_lowerHex8 (w : UInt32) : Spelled ("#0x" ++ lowerHex8 w).toList := by
  rw [String.toList_append]
  show Spelled ('#' :: ([] ++ ('0' :: 'x' :: (lowerHex8 w).toList)))
  exact spelled_number (.inl rfl) (isNumber_lowerHex8 w)

theorem spelled_decimal {n : Nat} (hn : n ≤ 32) : Spelled ("#" ++ decimal n).toList := by
  rw [String.toList_append]
  show Spelled ('#' :: ([] ++ (decimal n).toList))
  exact spelled_number (.inl rfl) (isNumber_decimal hn)

/-! ## Operands -/

theorem isName_registerName : ∀ r : Register, isName r.name.toList = true := by decide +kernel

theorem isName_conditionName : ∀ c : Condition, isName c.name.toList = true := by decide +kernel

theorem spelled_registerName (r : Register) : Spelled r.name.toList := spelled_name (isName_registerName r)

theorem spelled_displacement {d : Displacement} (hd : d.distance < 4096) : Spelled d.text.toList := by
  unfold Displacement.text
  cases d.down with
  | false => exact spelled_lowerHex (by omega)
  | true =>
    rw [if_pos rfl, String.toList_append, toList_lowerHex]
    show Spelled ('#' :: (['-'] ++ ('0' :: 'x' :: Nat.toDigits 16 d.distance)))
    exact spelled_number (.inr rfl) (isNumber_toDigits (by omega))

/-- An index is spelled, and ends the base in front of it. -/
theorem spelled_index {base : Register} {index : Index} {first : Bool}
    (h : (Operand.memory base index first).isSmall = true) :
    Spelled index.text.toList ∧ endsWord index.text.toList = true := by
  cases index with
  | none => exact ⟨.nil, rfl⟩
  | displacement d =>
    rw [Index.text, String.toList_append]
    exact ⟨.marks_append rfl (spelled_displacement (of_decide_eq_true h)), rfl⟩
  | register r =>
    rw [Index.text, String.toList_append]
    exact ⟨.marks_append rfl (spelled_registerName r), rfl⟩
  | scaled r places =>
    have hplaces : Spelled (", lsl #".toList ++ (decimal places).toList) := by
      show Spelled ([',', ' '] ++ (['l', 's', 'l'] ++ (' ' :: '#' :: ([] ++ (decimal places).toList))))
      have hnumber := spelled_number (.inl rfl) (isNumber_decimal (of_decide_eq_true h))
      exact .marks_append rfl (.name rfl rfl (.mark rfl hnumber))
    rw [Index.text, String.toList_append, String.toList_append, String.toList_append, List.append_assoc,
      List.append_assoc]
    exact ⟨.marks_append rfl (.name (isName_registerName r) rfl hplaces), rfl⟩

/-- **An operand** with small numbers is spelled. -/
theorem spelled_text {operand : Operand} (h : operand.isSmall = true) : Spelled operand.text.toList := by
  cases operand with
  | register r => exact spelled_registerName r
  | moved r =>
    rw [Operand.text, String.toList_append]
    exact .name (isName_registerName r) rfl (spelled_marks rfl)
  | registers rs =>
    have hnames : Spelled (", ".intercalate (rs.map Register.name)).toList := by
      refine spelled_intercalate fun text htext => ?_
      obtain ⟨r, _, rfl⟩ := List.mem_map.1 htext
      exact spelled_registerName r
    rw [Operand.text, String.toList_append, String.toList_append, List.append_assoc]
    exact .marks_append rfl (hnames.append (spelled_marks rfl) rfl)
  | count n => exact spelled_decimal (of_decide_eq_true h)
  | value v =>
    have hlt := v.toNat_lt
    exact spelled_lowerHex (by omega)
  | displacement d => exact spelled_displacement (of_decide_eq_true h)
  | encoding w => exact spelled_lowerHex8 w
  | memory base index first =>
    obtain ⟨hindex, hend⟩ := spelled_index h
    have hclose : Spelled ("]".toList ++ (if first then "!" else "").toList) := by
      cases first <;> exact spelled_marks rfl
    rw [Operand.text, String.toList_append, String.toList_append, String.toList_append, String.toList_append,
      List.append_assoc, List.append_assoc, List.append_assoc]
    exact .marks_append rfl (.name (isName_registerName base) (endsWord_append hend rfl) (hindex.append hclose rfl))
  | shift kind amount =>
    have hkind : isName kind.name.toList = true := by cases kind <;> rfl
    have hamount : Spelled (" #".toList ++ (decimal amount).toList) := by
      show Spelled (' ' :: '#' :: ([] ++ (decimal amount).toList))
      exact .mark rfl (spelled_number (.inl rfl) (isNumber_decimal (of_decide_eq_true h)))
    rw [Operand.text, String.toList_append, String.toList_append, List.append_assoc]
    exact .name hkind rfl hamount
  | rotateThroughCarry => exact spelled_name rfl
  | condition c => exact spelled_name (isName_conditionName c)
  | masks letters =>
    have hletters : letters.toList.all Char.isLower = true := h
    show Spelled letters.toList
    cases hc : letters.toList with
    | nil => exact .nil
    | cons c rest =>
      rw [hc, List.all_cons, Bool.and_eq_true, List.all_eq_true] at hletters
      refine spelled_name (Bool.and_eq_true_iff.2 ⟨hletters.1, List.all_eq_true.2 fun d hd => ?_⟩)
      exact Bool.or_eq_true_iff.2 (.inl (hletters.2 d hd))

/-- **The operands of an operation** are spelled as one text. -/
theorem spelled_operandText {op : Operation} (h : op.isRegular = true) : Spelled op.operandText.toList := by
  refine spelled_intercalate fun text htext => ?_
  obtain ⟨operand, hoperand, rfl⟩ := List.mem_map.1 htext
  refine spelled_text ?_
  rcases Bool.or_eq_true_iff.1 h with h | h
  · obtain ⟨_, w, hw⟩ := exists_encoding_of_showsBits h
    rw [hw, List.mem_singleton] at hoperand
    rw [hoperand]
    rfl
  · exact List.all_eq_true.1 (Bool.and_eq_true_iff.1 h).2 operand hoperand

/-! ## Plain names of registers -/

/-- Letters and digits are characters of words. -/
theorem isWord_of_isPlain {c : Char} (h : isPlain c = true) : isWord c = true := by
  have hascii : c.toNat < 0x80 := by
    have hrange := toNat_of_isPlain h
    omega
  rw [isWord_of_ascii hascii, isAlphanum_of_isPlain h]
  rfl

/-- Marks are no part of words. -/
theorem isWord_of_mark {c : Char} (h : marks.contains c = true) : isWord c = false := not_of_mark (by decide) h

theorem renameWords_cons {rename : List Char → List Char} (hnil : rename [] = []) {c : Char} {rest : List Char}
    (hc : isWord c = false) : renameWords rename (c :: rest) = c :: renameWords rename rest := by
  rw [renameWords, renameWordsFrom, hc, if_neg Bool.false_ne_true, hnil]
  rfl

/-- **A word that ends** is renamed apart from what follows. -/
theorem renameWords_append {rename : List Char → List Char} (hnil : rename [] = []) {word rest : List Char}
    (hword : ∀ c ∈ word, isPlain c = true) (hend : endsWord rest = true) :
    renameWords rename (word ++ rest) = rename word ++ renameWords rename rest := by
  -- The word is read character by character, so the induction goes over all that can have been read before.
  have hread : ∀ before : List Char,
      renameWordsFrom rename before (word ++ rest) = renameWordsFrom rename (before ++ word) rest := by
    induction word with
    | nil => intro before; rw [List.append_nil]; rfl
    | cons c word ih =>
      intro before
      rw [List.cons_append, renameWordsFrom, if_pos (isWord_of_isPlain (hword c List.mem_cons_self)),
        ih fun d hd => hword d (List.mem_cons_of_mem _ hd), List.append_assoc]
      rfl
  rw [renameWords, hread, List.nil_append]
  cases rest with
  | nil => rw [renameWordsFrom, renameWords, renameWordsFrom, hnil, List.append_nil]
  | cons c rest =>
    have hc : isWord c = false := isWord_of_mark hend
    rw [renameWords_cons hnil hc, renameWordsFrom, hc, if_neg Bool.false_ne_true]
    rfl

/-- Renaming keeps the marks. -/
theorem endsWord_renameWords {rename : List Char → List Char} (hnil : rename [] = []) {rest : List Char}
    (h : endsWord rest = true) : endsWord (renameWords rename rest) = true := by
  cases rest with
  | nil =>
    rw [renameWords, renameWordsFrom, hnil]
    rfl
  | cons c rest =>
    rw [renameWords_cons hnil (isWord_of_mark h)]
    exact h

/-- The plain name of a name is a name. -/
theorem isName_plainRegisterName {word : List Char} (h : isName word = true) :
    isName (plainRegisterName word) = true := by
  unfold plainRegisterName
  split
  · rfl
  split
  · rfl
  split
  · rfl
  split
  · rfl
  · exact h

/-- Numbers are no registers. -/
theorem plainRegisterName_of_isNumber {word : List Char} (h : isNumber word = true) :
    plainRegisterName word = word := by
  have hne : ∀ name : List Char, isNumber name = false → word ≠ name := by
    rintro name hname rfl
    rw [h] at hname
    cases hname
  unfold plainRegisterName
  rw [if_neg (hne _ rfl), if_neg (hne _ rfl), if_neg (hne _ rfl), if_neg (hne _ rfl)]

/-- A number keeps its mark, its sign and its digits. -/
theorem renameWords_number {sign word rest : List Char} (hsign : sign = [] ∨ sign = ['-'])
    (hword : isNumber word = true) (hend : endsWord rest = true) :
    renameWords plainRegisterName ('#' :: (sign ++ word ++ rest))
      = '#' :: (sign ++ word ++ renameWords plainRegisterName rest) := by
  have hrest : renameWords plainRegisterName (word ++ rest) = plainRegisterName word ++ _ :=
    renameWords_append rfl (isNumber_iff.1 hword).2.1 hend
  rw [plainRegisterName_of_isNumber hword] at hrest
  rw [renameWords_cons rfl rfl]
  rcases hsign with rfl | rfl
  · show '#' :: renameWords plainRegisterName (word ++ rest) = _
    rw [hrest]
    rfl
  · show '#' :: renameWords plainRegisterName ('-' :: (word ++ rest)) = _
    rw [renameWords_cons rfl rfl, hrest]
    rfl

/-- **A spelled text stays so** under the plain names of registers. -/
theorem Spelled.withPlainRegisters {cs : List Char} (h : Spelled cs) : Spelled (renameWords plainRegisterName cs) := by
  induction h with
  | nil => exact .nil
  | mark hmark _ ih =>
    rw [renameWords_cons rfl (isWord_of_mark hmark)]
    exact .mark hmark ih
  | name hword hend _ ih =>
    rw [renameWords_append rfl (isPlain_of_isName hword) hend]
    exact .name (isName_plainRegisterName hword) (endsWord_renameWords rfl hend) ih
  | number hsign hword hend _ ih =>
    rw [renameWords_number hsign hword hend]
    exact .number hsign hword (endsWord_renameWords rfl hend) ih

/-! ## Instructions -/

/-- **The mnemonic of whatever is decoded** is one of the table, or that of encodings which are shown by their bits. -/
theorem isMnemonic_or_of_decode {code : Bytes} {address : UInt32} {i : Instruction} (h : decode code address = some i) :
    isMnemonic i.mnemonic = true ∨ i.mnemonic = ".inst.w" ∧
      ∃ w : UInt32, i.withPlainRegisters.operands.toList = '#' :: '0' :: 'x' :: (lowerHex8 w).toList := by
  obtain ⟨op, hregular, hmnemonic, hoperands⟩ := exists_regular_of_decode h
  rw [hmnemonic]
  rcases Bool.or_eq_true_iff.1 hregular with hbits | hnames
  · obtain ⟨hinst, w, hw⟩ := exists_encoding_of_showsBits hbits
    refine .inr ⟨hinst, w, ?_⟩
    have htext : op.operandText.toList = '#' :: ([] ++ ('0' :: 'x' :: (lowerHex8 w).toList) ++ []) := by
      rw [List.append_nil, Operation.operandText, hw]
      show ("#0x" ++ lowerHex8 w).toList = _
      rw [String.toList_append]
      rfl
    show (plainRegisterNames i.operands).toList = _
    rw [plainRegisterNames, toList_onChars, hoperands, htext, renameWords_number (.inl rfl) (isNumber_lowerHex8 w) rfl]
    exact congrArg ('#' :: '0' :: 'x' :: ·) (List.append_nil _)
  · exact .inl (Bool.and_eq_true_iff.1 hnames).1

theorem isDecodedMnemonic_of_decode {code : Bytes} {address : UInt32} {i : Instruction}
    (h : decode code address = some i) : IsDecodedMnemonic i.mnemonic :=
  (isMnemonic_or_of_decode h).imp_right And.left

/-- **The operands of whatever is decoded** are spelled, under the plain names of registers. -/
theorem spelled_withPlainRegisters_of_decode {code : Bytes} {address : UInt32} {i : Instruction}
    (h : decode code address = some i) : Spelled i.withPlainRegisters.operands.toList := by
  obtain ⟨op, hregular, _, hoperands⟩ := exists_regular_of_decode h
  show Spelled (plainRegisterNames i.operands).toList
  rw [plainRegisterNames, toList_onChars, hoperands]
  exact (spelled_operandText hregular).withPlainRegisters

end BinaryPatching.Thumb
