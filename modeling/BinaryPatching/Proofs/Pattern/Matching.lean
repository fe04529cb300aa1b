import BinaryPatching.Pattern.Instruction
import Mathlib.Data.List.Forall2

/-!
# `BinaryPatching.Proofs.Pattern.Matching` — what a pattern matches

A pattern is compared with an instruction token by token, and two of its forms are read before that: a wildcard alone,
and a mnemonic with nothing or one wildcard behind it. Here the forms are rules, one for each, and what is matched is
just what they derive. So a pattern can be made more general without moving the pair from a rule that matches to one
that does not.

## Contents
- `sameMnemonic_iff`, `Token.agrees_self`, `Token.agrees_of_isWildcard`: single tokens.
- `Matches`, `matchesTokens_iff`: the rules.
- `Generalizes`, `Matches.generalized`: wildcards in the place of tokens.
- `Matches.widened`: the wide form of a mnemonic.
- `matchesTokens_self`: tokens match themselves.
- `matchesTokens_generalized`: the three of them.
-/

namespace BinaryPatching

open Text Thumb

/-! ## Single tokens -/

/-- **Which mnemonics are wanted**: the one of the pattern, and its wide form. -/
theorem sameMnemonic_iff {mnemonic wanted : Token} :
    sameMnemonic mnemonic wanted = true ↔
      mnemonic.text = wanted.text ∨ mnemonic.text.toList = wanted.text.toList ++ ['.', 'w'] := by
  rw [sameMnemonic, Bool.or_eq_true, beq_iff_eq, beq_iff_eq]
  refine or_congr_right ?_
  unfold withoutEnding?
  split
  · rename_i hsuffix
    obtain ⟨base, hbase⟩ := List.isSuffixOf_iff_suffix.1 hsuffix
    rw [← hbase, List.length_append, Nat.add_sub_cancel, List.take_left', Option.some.injEq, List.append_cancel_right_eq]
    rfl
  · rename_i hnot
    refine ⟨fun h => (nomatch h), fun h => absurd ?_ hnot⟩
    rw [h]
    exact List.isSuffixOf_iff_suffix.2 (List.suffix_append _ _)

theorem sameMnemonic_self (token : Token) : sameMnemonic token token = true := sameMnemonic_iff.2 (.inl rfl)

/-- A token agrees with itself, whatever it stands for. -/
theorem Token.agrees_self (token : Token) : token.agrees token = true := by
  unfold Token.agrees
  by_cases hregister : token.isRegisterWildcard = true
  · obtain ⟨htext, _⟩ := Bool.and_eq_true_iff.1 hregister
    rw [if_pos hregister, beq_iff_eq.1 htext]
    exact Bool.or_true _
  · rw [if_neg hregister, beq_self_eq_true, Bool.true_or, Bool.or_true]

/-- Every token agrees with a wildcard. -/
theorem Token.agrees_of_isWildcard (actual : Token) {expected : Token} (h : expected.isWildcard = true) :
    actual.agrees expected = true := by
  rw [Token.agrees, h, Bool.true_or]

/-! ## The rules -/

/-- **What matches.** The tokens of an instruction, and those of a pattern. -/
inductive Matches : List Token → List Token → Prop where
  /-- A wildcard alone stands for every instruction. -/
  | anything {mnemonic wanted : Token} {operands : List Token} (hwanted : wanted.isWildcard = true) :
      Matches (mnemonic :: operands) [wanted]
  /-- A mnemonic alone stands for every instruction that has it. -/
  | mnemonicAlone {mnemonic wanted : Token} {operands : List Token} (hsame : sameMnemonic mnemonic wanted = true) :
      Matches (mnemonic :: operands) [wanted]
  /-- So does a mnemonic with a wildcard, however many tokens there are. -/
  | openRest {mnemonic wanted rest : Token} {operands : List Token} (hsame : sameMnemonic mnemonic wanted = true)
      (hrest : rest.isWildcard = true) : Matches (mnemonic :: operands) [wanted, rest]
  /-- Else each token of the instruction agrees with one of the pattern. -/
  | tokenwise {mnemonic wanted : Token} {operands expected : List Token} (hsame : sameMnemonic mnemonic wanted = true)
      (hagree : List.Forall₂ (fun actual e => actual.agrees e = true) operands expected) :
      Matches (mnemonic :: operands) (wanted :: expected)

/-- Tokens that agree one by one are as many. -/
theorem agree_iff_forall₂ {operands expected : List Token} :
    (operands.length == expected.length && (operands.zip expected).all fun (a, e) => a.agrees e) = true ↔
      List.Forall₂ (fun actual e => actual.agrees e = true) operands expected := by
  rw [Bool.and_eq_true, beq_iff_eq, List.forall₂_iff_zip, List.all_eq_true]
  exact and_congr_right fun _ => ⟨fun h a e hmem => h (a, e) hmem, fun h pair hmem => h hmem⟩

/-- **The rules are those of the comparison.** -/
theorem matchesTokens_iff {instruction pattern : List Token} :
    matchesTokens instruction pattern = true ↔ Matches instruction pattern := by
  constructor
  · intro h
    unfold matchesTokens at h
    split at h
    · rename_i mnemonic operands wanted expected
      split at h
      · rename_i halone
        obtain ⟨hempty, hwanted⟩ := Bool.and_eq_true_iff.1 halone
        rw [List.isEmpty_iff.1 hempty]
        exact .anything hwanted
      · split at h
        · cases h
        · rename_i hsame
          rw [Bool.not_eq_true', Bool.not_eq_false] at hsame
          split at h
          · exact .mnemonicAlone hsame
          · rcases Bool.or_eq_true_iff.1 h with hrest | hagree
            · exact .openRest hsame hrest
            · exact .tokenwise hsame (agree_iff_forall₂.1 hagree)
          · exact .tokenwise hsame (agree_iff_forall₂.1 h)
    · cases h
  · intro h
    cases h with
    | anything hwanted => simp [matchesTokens, hwanted]
    | mnemonicAlone hsame => simp [matchesTokens, hsame]
    | openRest hsame hrest => simp [matchesTokens, hsame, hrest]
    | @tokenwise mnemonic wanted operands expected hsame hagree =>
      have hall := agree_iff_forall₂.2 hagree
      match expected with
      | [] => simp [matchesTokens, hsame]
      | [only] =>
        simp only [matchesTokens, List.isEmpty_cons, Bool.false_and, Bool.false_eq_true, if_false, hsame, Bool.not_true]
        exact Bool.or_eq_true_iff.2 (.inr hall)
      | first :: second :: rest =>
        simp only [matchesTokens, List.isEmpty_cons, Bool.false_and, Bool.false_eq_true, if_false, hsame, Bool.not_true]
        exact hall

/-! ## Patterns made more general -/

/-- **A pattern made more general**: behind the first token, wildcards stand in the place of any others. -/
inductive Generalizes : List Token → List Token → Prop where
  /-- The first token is kept, and each of the others is kept or a wildcard stands in its place. -/
  | intro {wanted : Token} {expected general : List Token}
      (hgeneral : List.Forall₂ (fun e g => g = e ∨ g.isWildcard = true) expected general) :
      Generalizes (wanted :: expected) (wanted :: general)

/-- Tokens agree with those of a pattern that is more general. -/
theorem agree_general {operands expected general : List Token}
    (hagree : List.Forall₂ (fun actual e => actual.agrees e = true) operands expected)
    (hgeneral : List.Forall₂ (fun e g => g = e ∨ g.isWildcard = true) expected general) :
    List.Forall₂ (fun actual g => actual.agrees g = true) operands general := by
  induction hagree generalizing general with
  | nil =>
    cases hgeneral
    exact .nil
  | @cons actual e operands expected hactual _ ih =>
    cases hgeneral with
    | cons hg hrest =>
      refine .cons ?_ (ih hrest)
      rcases hg with rfl | hwildcard
      · exact hactual
      · exact actual.agrees_of_isWildcard hwildcard

/-- **A more general pattern matches** what the pattern matches. -/
theorem Matches.generalized {instruction pattern general : List Token} (h : Matches instruction pattern)
    (hgeneral : Generalizes pattern general) : Matches instruction general := by
  obtain ⟨hgeneral⟩ := hgeneral
  cases h with
  | anything hwanted =>
    cases hgeneral
    exact .anything hwanted
  | mnemonicAlone hsame =>
    cases hgeneral
    exact .mnemonicAlone hsame
  | openRest hsame hrest =>
    obtain _ | ⟨hg, hnil⟩ := hgeneral
    cases hnil
    refine .openRest hsame ?_
    rcases hg with rfl | hwildcard
    · exact hrest
    · exact hwildcard
  | tokenwise hsame hagree => exact .tokenwise hsame (agree_general hagree hgeneral)

/-! ## Wide forms -/

/-- A mnemonic that is wanted is wanted in its wide form too. -/
theorem sameMnemonic_widened {mnemonic wanted wide : Token} (hnarrow : ¬['.', 'w'] <:+ mnemonic.text.toList)
    (hwide : wide.text = mnemonic.text ++ ".w") (h : sameMnemonic mnemonic wanted = true) :
    sameMnemonic wide wanted = true := by
  rcases sameMnemonic_iff.1 h with htext | hsuffix
  · refine sameMnemonic_iff.2 (.inr ?_)
    rw [hwide, htext, String.toList_append]
    rfl
  · rw [hsuffix] at hnarrow
    exact absurd (List.suffix_append _ _) hnarrow

/-- **The wide form of an instruction is matched** by the patterns that match the instruction. -/
theorem Matches.widened {mnemonic wide : Token} {operands pattern : List Token}
    (h : Matches (mnemonic :: operands) pattern) (hnarrow : ¬['.', 'w'] <:+ mnemonic.text.toList)
    (hwide : wide.text = mnemonic.text ++ ".w") : Matches (wide :: operands) pattern := by
  cases h with
  | anything hwanted => exact .anything hwanted
  | mnemonicAlone hsame => exact .mnemonicAlone (sameMnemonic_widened hnarrow hwide hsame)
  | openRest hsame hrest => exact .openRest (sameMnemonic_widened hnarrow hwide hsame) hrest
  | tokenwise hsame hagree => exact .tokenwise (sameMnemonic_widened hnarrow hwide hsame) hagree

/-! ## Tokens as their own pattern -/

/-- **Tokens match themselves**, if there are any. -/
theorem matchesTokens_self {tokens : List Token} (h : tokens ≠ []) : matchesTokens tokens tokens = true := by
  cases tokens with
  | nil => exact absurd rfl h
  | cons mnemonic operands =>
    have hagree : List.Forall₂ (fun actual e => actual.agrees e = true) operands operands :=
      List.forall₂_same.2 fun token _ => token.agrees_self
    exact matchesTokens_iff.2 (.tokenwise (sameMnemonic_self mnemonic) hagree)

/-- **Patterns can be made more general without losing what they match.** A pattern that matches an instruction matches it
with wildcards in the place of any tokens behind the first, and it matches the wide form of the instruction, when its
mnemonic has no mark of a wide encoding yet. Every instruction that has tokens is matched by them. -/
theorem matchesTokens_generalized (instruction pattern : List Token) :
    (matchesTokens instruction pattern = true →
      (∀ general, Generalizes pattern general → matchesTokens instruction general = true) ∧
        ∀ mnemonic operands wide, instruction = mnemonic :: operands → ¬['.', 'w'] <:+ mnemonic.text.toList →
          wide.text = mnemonic.text ++ ".w" → matchesTokens (wide :: operands) pattern = true) ∧
      (instruction ≠ [] → matchesTokens instruction instruction = true) := by
  refine ⟨fun h => ⟨fun general hgeneral => ?_, ?_⟩, matchesTokens_self⟩
  · exact matchesTokens_iff.2 ((matchesTokens_iff.1 h).generalized hgeneral)
  · rintro mnemonic operands wide rfl hnarrow hwide
    exact matchesTokens_iff.2 ((matchesTokens_iff.1 h).widened hnarrow hwide)

/-- A load through a register, with a displacement. -/
def loadTokens : List Token :=
  [.name "ldr", .name "r0", .separator, .bracket '[', .name "r1", .separator, .number "4" 4, .bracket ']']

/-- A pattern for it: any register is loaded, and the displacement is written in hexadecimal. -/
def loadPattern : List Token :=
  [.name "ldr", .name "r?", .separator, .bracket '[', .name "r1", .separator, .number "0x4" 4, .bracket ']']

/-- The same pattern with any base and any displacement. -/
def openLoadPattern : List Token :=
  [.name "ldr", .name "r?", .separator, .bracket '[', .operator '?', .separator, .operator '?', .bracket ']']

/-- The load with a pattern made more general, in its wide form, and as its own pattern. -/
theorem matchesTokens_generalized_load :
    matchesTokens loadTokens loadPattern = true ∧ Generalizes loadPattern openLoadPattern ∧
      matchesTokens loadTokens openLoadPattern = true ∧ ¬['.', 'w'] <:+ "ldr".toList ∧
      matchesTokens (.name "ldr.w" :: loadTokens.tail) loadPattern = true ∧ loadTokens ≠ [] ∧
      matchesTokens loadTokens loadTokens = true := by
  have hmatch : matchesTokens loadTokens loadPattern = true := by decide +kernel
  have hgeneral : Generalizes loadPattern openLoadPattern :=
    ⟨.cons (.inl rfl) (.cons (.inl rfl) (.cons (.inl rfl) (.cons (.inr rfl) (.cons (.inl rfl) (.cons (.inr rfl)
      (.cons (.inl rfl) .nil))))))⟩
  have hnarrow : ¬['.', 'w'] <:+ "ldr".toList := by decide +kernel
  have hsome : loadTokens ≠ [] := List.cons_ne_nil _ _
  have hwide : "ldr.w" = "ldr" ++ ".w" := by decide +kernel
  obtain ⟨hkept, hself⟩ := matchesTokens_generalized loadTokens loadPattern
  obtain ⟨hopen, hwidened⟩ := hkept hmatch
  exact ⟨hmatch, hgeneral, hopen openLoadPattern hgeneral, hnarrow,
    hwidened (.name "ldr") loadTokens.tail (.name "ldr.w") rfl hnarrow hwide, hsome, hself hsome⟩

end BinaryPatching
