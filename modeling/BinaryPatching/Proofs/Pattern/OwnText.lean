import BinaryPatching.Proofs.Pattern.Lexing
import BinaryPatching.Proofs.Pattern.Matching
import BinaryPatching.Proofs.Text.Case

/-!
# `BinaryPatching.Proofs.Pattern.OwnText` — decoded instructions found by their own text

The text that the decoder gives an instruction is a mnemonic and a spelled text behind it, and the lexical grammar of
patterns reads the two apart. So every decoded instruction is matched by the pattern that is its text, and by its
mnemonic with an open rest. Its mnemonic alone is read as one name and matches it as well, except where the encoding is
shown by its bits: that mnemonic begins with a point, which no name does.

## Contents
- `mnemonicTokens`, `tokenizeInstruction_append`: the tokens of a mnemonic and what follows it.
- `matchesText_of_isMnemonic`, `matchesText_bits`: the two kinds of mnemonics.
- `matchesText_own`: instructions.
-/

namespace BinaryPatching

open Text Thumb

/-! ## The tokens of an instruction -/

/-- **The tokens of a mnemonic.** The one that begins with a point is no name: the point is a token of its own. -/
def mnemonicTokens (mnemonic : String) : List Token :=
  if mnemonic = ".inst.w" then [.operator '.', .name "inst.w"] else [.name mnemonic]

section Mnemonics

variable {mnemonic : String}

theorem mnemonicTokens_of_isMnemonic (h : isMnemonic mnemonic = true) : mnemonicTokens mnemonic = [.name mnemonic] := by
  refine if_neg ?_
  rintro rfl
  cases h

theorem mnemonicTokens_ne_nil (mnemonic : String) : mnemonicTokens mnemonic ≠ [] := by
  unfold mnemonicTokens
  split <;> exact List.cons_ne_nil _ _

/-- Letters and digits of names are no capital letters. -/
theorem isUncapital_of_isPlain {c : Char} (h : isPlain c = true) : isUncapital c = true := by
  have hrange := toNat_of_isPlain h
  exact isUncapital_iff.2 (by omega)

theorem isUncapital_of_spelled {cs : List Char} (h : Spelled cs) : ∀ c ∈ cs, isUncapital c = true :=
  h.forall_mem (fun _ => isUncapital_of_isPlain) (by decide)

/-- **A mnemonic is read apart** from what follows it. -/
theorem Token.scan_mnemonic (h : IsDecodedMnemonic mnemonic) {rest : List Char} (hend : endsWord rest = true)
    (total : Nat) :
    ∃ last, scan total none (mnemonic.toList ++ rest) =
      (scan total (some last) rest).map (mnemonicTokens mnemonic ++ ·) := by
  rcases h with h | rfl
  · obtain ⟨c, letters, hlist, hc, hletters⟩ := exists_of_isMnemonic h
    have hname : String.ofList (c :: letters) = mnemonic := by rw [← hlist, String.ofList_toList]
    refine ⟨name mnemonic, ?_⟩
    rw [mnemonicTokens_of_isMnemonic h, hlist, List.cons_append, scan_name hc hletters hend, hname]
    rfl
  · have hpoint : ofSymbol? '.' = some (operator '.') := by decide
    have hletters : ∀ d ∈ ['n', 's', 't', '.', 'w'], continuesMnemonic d = true := List.all_eq_true.1 rfl
    refine ⟨name "inst.w", ?_⟩
    show scan total none ('.' :: 'i' :: (['n', 's', 't', '.', 'w'] ++ rest)) = _
    rw [scan_symbol rfl rfl rfl (by decide) hpoint, scan_name rfl hletters hend]
    show ((scan total (some (name "inst.w")) rest).map _).map _ = _
    cases scan total (some (name "inst.w")) rest <;> rfl

/-- Only the letter of registers is joined with a wildcard, and no mnemonic is that letter. -/
theorem Token.joinRegisterWildcards_mnemonic (h : IsDecodedMnemonic mnemonic) (tokens : List Token) :
    joinRegisterWildcards (mnemonicTokens mnemonic ++ tokens)
      = mnemonicTokens mnemonic ++ joinRegisterWildcards tokens := by
  have hjoin (name : String) (hname : name ≠ "r") :
      joinRegisterWildcards (.name name :: tokens) = .name name :: joinRegisterWildcards tokens := by
    rw [joinRegisterWildcards]
    · intro rest heq
      exact absurd (Token.name.inj heq) hname
    · intro rest heq
      cases heq
  rcases h with h | rfl
  · rw [mnemonicTokens_of_isMnemonic h]
    refine hjoin mnemonic ?_
    rintro rfl
    cases h
  · show .operator '.' :: joinRegisterWildcards (.name "inst.w" :: tokens) = _
    rw [hjoin "inst.w" (by decide)]
    rfl

/-- The comparable form of a mnemonic and what follows it has lost the marks of literals. -/
theorem toList_comparableText (h : IsDecodedMnemonic mnemonic) {text : String} {rest : List Char}
    (hrest : ∀ c ∈ rest, isUncapital c = true) (htext : text.toList = mnemonic.toList ++ rest) :
    (comparableText text).toList = mnemonic.toList ++ rest.filter (· != '#') := by
  have hmnemonic := h.forall_mem
  have huncapital : ∀ c ∈ text.toList, isUncapital c = true := by
    rw [htext]
    intro c hc
    rcases List.mem_append.1 hc with hc | hc
    · rcases Bool.or_eq_true_iff.1 (hmnemonic c hc) with hplain | hpoint
      · exact isUncapital_of_isPlain hplain
      · rw [beq_iff_eq.1 hpoint]
        rfl
    · exact hrest c hc
  have hkept : mnemonic.toList.filter (· != '#') = mnemonic.toList := by
    refine List.filter_eq_self.2 fun c hc => bne_iff_ne.2 ?_
    rintro rfl
    exact absurd (hmnemonic _ hc) (by decide)
  rw [comparableText, toList_onChars, lowercase_eq_self huncapital, htext, List.filter_append, hkept]

/-- **The tokens of a mnemonic and what follows it**, as far as what follows has tokens. -/
theorem tokenizeInstruction_append (h : IsDecodedMnemonic mnemonic) {text : String} {rest : List Char}
    (hend : endsWord rest = true) (hrest : ∀ c ∈ rest, isUncapital c = true)
    (htext : text.toList = mnemonic.toList ++ rest) :
    ∃ total last, tokenizeInstruction text = (Token.scan total (some last) (rest.filter (· != '#'))).map
      fun tokens => mnemonicTokens mnemonic ++ Token.joinRegisterWildcards tokens := by
  obtain ⟨last, hscan⟩ := Token.scan_mnemonic h (Token.endsWord_filter hend) (comparableText text).toList.length
  refine ⟨(comparableText text).toList.length, last, ?_⟩
  rw [tokenizeInstruction, tokenize]
  -- What is scanned and its length are rewritten at once: the columns of errors depend on the length.
  rw [toList_comparableText h hrest htext] at hscan ⊢
  rw [hscan]
  cases Token.scan _ (some last) (rest.filter (· != '#')) with
  | error e => rfl
  | ok tokens => exact congrArg Except.ok (Token.joinRegisterWildcards_mnemonic h tokens)

/-- The mnemonic alone. -/
theorem tokenizeInstruction_mnemonic (h : IsDecodedMnemonic mnemonic) :
    tokenizeInstruction mnemonic = .ok (mnemonicTokens mnemonic) := by
  obtain ⟨total, last, htokens⟩ :=
    tokenizeInstruction_append h rfl (fun c hc => absurd hc List.not_mem_nil) (List.append_nil _).symm
  rw [htokens, List.filter_nil, Token.scan_nil]
  exact congrArg Except.ok (List.append_nil _)

/-- The mnemonic with an open rest. -/
theorem tokenizeInstruction_open (h : IsDecodedMnemonic mnemonic) :
    tokenizeInstruction (mnemonic ++ " ?") = .ok (mnemonicTokens mnemonic ++ [.operator '?']) := by
  have hwildcard : Token.ofSymbol? '?' = some (.operator '?') := by decide
  have htext : (mnemonic ++ " ?").toList = mnemonic.toList ++ [' ', '?'] := String.toList_append
  obtain ⟨total, last, htokens⟩ := tokenizeInstruction_append h rfl (List.all_eq_true.1 rfl) htext
  rw [htokens]
  show Except.map _ (Token.scan total (some last) [' ', '?']) = _
  rw [Token.scan_blank rfl, Token.scan_symbol rfl rfl rfl (by decide) hwildcard, Token.scan_nil]
  rfl

end Mnemonics

/-! ## Instructions -/

/-- What is matched when both texts have tokens. -/
theorem matchesText_of_tokens {text pattern : String} {actual expected : List Token}
    (hactual : tokenizeInstruction text = .ok actual) (hexpected : tokenizeInstruction pattern = .ok expected) :
    matchesText text pattern = .ok (matchesTokens actual expected) := by
  rw [matchesText, hactual, hexpected]

/-- The text of an instruction is its mnemonic and the operands behind a blank, if there are any. -/
theorem exists_toList_text (i : Instruction) (h : Spelled i.operands.toList) :
    ∃ rest, Spelled rest ∧ endsWord rest = true ∧ i.text.toList = i.mnemonic.toList ++ rest := by
  unfold Instruction.text
  by_cases hempty : i.operands.isEmpty = true
  · rw [if_pos hempty]
    exact ⟨[], .nil, rfl, (List.append_nil _).symm⟩
  · rw [if_neg hempty, String.toList_append, String.toList_append, List.append_assoc]
    exact ⟨_, .marks_append rfl h, rfl, rfl⟩

/-- **An instruction has tokens** when its operands are spelled: those of its mnemonic, and more. -/
theorem exists_tokenizeInstruction_text {i : Instruction} (hm : IsDecodedMnemonic i.mnemonic)
    (h : Spelled i.operands.toList) :
    ∃ operands, tokenizeInstruction i.text = .ok (mnemonicTokens i.mnemonic ++ operands) := by
  obtain ⟨rest, hrest, hend, htext⟩ := exists_toList_text i h
  have huncapital : ∀ c ∈ rest, isUncapital c = true := isUncapital_of_spelled hrest
  obtain ⟨total, last, htokens⟩ := tokenizeInstruction_append hm hend huncapital htext
  obtain ⟨tokens, hscan⟩ := Token.scans_of_spelled hrest total (some last)
  rw [htokens, hscan]
  exact ⟨Token.joinRegisterWildcards tokens, rfl⟩

/-- **An encoding that is shown by its bits** has three tokens: the point, the name behind it, and the number. -/
theorem tokenizeInstruction_bits {i : Instruction} {w : UInt32} (hm : i.mnemonic = ".inst.w")
    (h : i.operands.toList = '#' :: '0' :: 'x' :: (lowerHex8 w).toList) :
    ∃ text v, tokenizeInstruction i.text = .ok (mnemonicTokens ".inst.w" ++ [.number text v]) := by
  have hnumber := isNumber_lowerHex8 w
  obtain ⟨_, hplain, hvalue⟩ := isNumber_iff.1 hnumber
  obtain ⟨v, hv⟩ := Option.isSome_iff_exists.1 hvalue
  have hliteral : Spelled ('#' :: ([] ++ ('0' :: 'x' :: (lowerHex8 w).toList))) := spelled_number (.inl rfl) hnumber
  have hspelled : Spelled (' ' :: '#' :: '0' :: 'x' :: (lowerHex8 w).toList) := .mark rfl hliteral
  have hoperands : i.operands.isEmpty = false := by
    rw [Bool.eq_false_iff]
    intro hempty
    rw [String.isEmpty_iff.1 hempty] at h
    cases h
  have htext : i.text.toList = ".inst.w".toList ++ ' ' :: '#' :: '0' :: 'x' :: (lowerHex8 w).toList := by
    rw [Instruction.text, hoperands, if_neg Bool.false_ne_true, hm, String.toList_append, String.toList_append, h]
    rfl
  obtain ⟨total, last, htokens⟩ := tokenizeInstruction_append (.inr rfl) rfl (isUncapital_of_spelled hspelled) htext
  have hbare : (' ' :: '#' :: '0' :: 'x' :: (lowerHex8 w).toList).filter (· != '#')
      = ' ' :: '0' :: (('x' :: (lowerHex8 w).toList) ++ []) := by
    rw [List.append_nil]
    exact congrArg (' ' :: ·) (Token.filter_word hplain)
  rw [htokens, hbare, Token.scan_blank rfl,
    Token.scan_number rfl rfl rfl (fun d hd => hplain d (List.mem_cons_of_mem _ hd)) hv rfl, Token.scan_nil]
  exact ⟨_, v, rfl⟩

/-- **The mnemonic of bits** matches them with an open rest, which stands for one token. Alone it has two tokens where
they have three. -/
theorem matchesText_bits {i : Instruction} {w : UInt32} (hm : i.mnemonic = ".inst.w")
    (h : i.operands.toList = '#' :: '0' :: 'x' :: (lowerHex8 w).toList) :
    matchesText i.text (i.mnemonic ++ " ?") = .ok true ∧ matchesText i.text i.mnemonic = .ok false := by
  obtain ⟨text, v, htokens⟩ := tokenizeInstruction_bits hm h
  have hwildcard : (Token.number text v).agrees (.operator '?') = true := rfl
  rw [hm, matchesText_of_tokens htokens (tokenizeInstruction_open (.inr rfl)),
    matchesText_of_tokens htokens (tokenizeInstruction_mnemonic (.inr rfl))]
  constructor
  · have hagree : List.Forall₂ (fun actual e => actual.agrees e = true) [Token.name "inst.w", .number text v]
        [.name "inst.w", .operator '?'] := .cons (Token.agrees_self _) (.cons hwildcard .nil)
    exact congrArg Except.ok (matchesTokens_iff.2 (.tokenwise (sameMnemonic_self _) hagree))
  · refine congrArg Except.ok (Bool.eq_false_iff.2 fun hmatch => ?_)
    have hmatch : Matches [.operator '.', .name "inst.w", .number text v] [.operator '.', .name "inst.w"] :=
      matchesTokens_iff.1 hmatch
    cases hmatch with
    | openRest _ hrest => exact absurd hrest (by decide)
    | tokenwise _ hagree =>
      obtain _ | ⟨_, hnil⟩ := hagree
      cases hnil

/-- **A mnemonic of the table** is one token, and matches its instruction alone and with an open rest. -/
theorem matchesText_of_isMnemonic {i : Instruction} (hm : isMnemonic i.mnemonic = true)
    (h : Spelled i.operands.toList) :
    matchesText i.text (i.mnemonic ++ " ?") = .ok true ∧ matchesText i.text i.mnemonic = .ok true := by
  obtain ⟨operands, htokens⟩ := exists_tokenizeInstruction_text (.inl hm) h
  rw [matchesText_of_tokens htokens (tokenizeInstruction_open (.inl hm)),
    matchesText_of_tokens htokens (tokenizeInstruction_mnemonic (.inl hm)), mnemonicTokens_of_isMnemonic hm]
  constructor
  · exact congrArg Except.ok (matchesTokens_iff.2 (.openRest (sameMnemonic_self _) rfl))
  · exact congrArg Except.ok (matchesTokens_iff.2 (.mnemonicAlone (sameMnemonic_self _)))

/-- **Every decoded instruction has tokens and is found by its own text**, under the plain names of registers, and by
its mnemonic with an open rest. It is found by its mnemonic alone unless it is an encoding shown by its bits. -/
theorem matchesText_own {code : Bytes} {address : UInt32} {i : Instruction} (h : decode code address = some i) :
    (∃ tokens, tokenizeInstruction i.withPlainRegisters.text = .ok tokens) ∧
      matchesText i.withPlainRegisters.text i.withPlainRegisters.text = .ok true ∧
      matchesText i.withPlainRegisters.text (i.withPlainRegisters.mnemonic ++ " ?") = .ok true ∧
      matchesText i.withPlainRegisters.text i.withPlainRegisters.mnemonic =
        .ok (i.withPlainRegisters.mnemonic != ".inst.w") := by
  have hspelled := spelled_withPlainRegisters_of_decode h
  have hmnemonic := isMnemonic_or_of_decode h
  have hdecoded := isDecodedMnemonic_of_decode h
  have hm : IsDecodedMnemonic i.withPlainRegisters.mnemonic := hdecoded
  obtain ⟨operands, htokens⟩ := exists_tokenizeInstruction_text hm hspelled
  have hne : mnemonicTokens i.withPlainRegisters.mnemonic ++ operands ≠ [] :=
    List.append_ne_nil_of_left_ne_nil (mnemonicTokens_ne_nil _) _
  refine ⟨⟨_, htokens⟩, ?_, ?_⟩
  · rw [matchesText_of_tokens htokens htokens]
    exact congrArg Except.ok (matchesTokens_self hne)
  · -- The mnemonics of the table are one token each, and the remaining one is two.
    rcases hmnemonic with htable | ⟨hinst, w, hw⟩
    · have hname : (i.mnemonic != ".inst.w") = true := by
        rw [bne_iff_ne]
        intro heq
        rw [heq] at htable
        cases htable
      rw [Instruction.mnemonic_withPlainRegisters, hname]
      exact matchesText_of_isMnemonic htable hspelled
    · have hname : (i.mnemonic != ".inst.w") = false := by rw [hinst, bne_self_eq_false]
      rw [Instruction.mnemonic_withPlainRegisters, hname]
      exact matchesText_bits hinst hw

/-- A load with a negative displacement, between registers that have other names. -/
theorem matchesText_own_load :
    decode [0x59, 0xF8, 0x04, 0xBC] 0x1000
        = some ⟨0x1000, [0x59, 0xF8, 0x04, 0xBC], "ldr", "fp, [sb, #-0x4]"⟩ ∧
      (∃ tokens, tokenizeInstruction "ldr r11, [r9, #-0x4]" = .ok tokens) ∧
      matchesText "ldr r11, [r9, #-0x4]" "ldr r11, [r9, #-0x4]" = .ok true ∧
      matchesText "ldr r11, [r9, #-0x4]" "ldr ?" = .ok true ∧
      matchesText "ldr r11, [r9, #-0x4]" "ldr" = .ok true := by
  have hdecode : decode [0x59, 0xF8, 0x04, 0xBC] 0x1000
      = some ⟨0x1000, [0x59, 0xF8, 0x04, 0xBC], "ldr", "fp, [sb, #-0x4]"⟩ := by decide +kernel
  have htext : (⟨0x1000, [0x59, 0xF8, 0x04, 0xBC], "ldr", "fp, [sb, #-0x4]"⟩ : Instruction).withPlainRegisters.text
      = "ldr r11, [r9, #-0x4]" := by decide +kernel
  have hopen : "ldr" ++ " ?" = "ldr ?" := by decide +kernel
  have hmark : ("ldr" != ".inst.w") = true := by decide +kernel
  have hown := matchesText_own hdecode
  rw [htext, Instruction.mnemonic_withPlainRegisters, hopen, hmark] at hown
  exact ⟨hdecode, hown⟩

/-- An encoding that is shown by its bits is decoded, and not matched by its mnemonic. -/
theorem exists_not_matchesText_mnemonic :
    ∃ i, decode [0x40, 0xE8, 0x00, 0x00] 0x1000 = some i ∧
      i.withPlainRegisters.text = ".inst.w #0xe8400000" ∧ i.withPlainRegisters.mnemonic = ".inst.w" ∧
      matchesText i.withPlainRegisters.text i.withPlainRegisters.mnemonic = .ok false := by
  have hoperands : (plainRegisterNames "#0xe8400000").toList = '#' :: '0' :: 'x' :: (lowerHex8 0xe8400000).toList := by
    decide +kernel
  exact ⟨⟨0x1000, [0x40, 0xE8, 0x00, 0x00], ".inst.w", "#0xe8400000"⟩, by decide +kernel, by decide +kernel, rfl,
    (matchesText_bits rfl hoperands).2⟩

end BinaryPatching
