import BinaryPatching.Pattern.Token
import BinaryPatching.Proofs.Thumb.Spelling

/-!
# `BinaryPatching.Proofs.Pattern.Lexing` — spelled texts have tokens

The lexical grammar of commands and patterns reads the words of a spelled text where they end: a name at the mark behind
it, and a number likewise, whether a sign can stand before it or not. So a spelled text has tokens whatever stands in
front of it, once the marks of its literals are gone.

## Contents
- `takeWhile_word`: a word that ends is read up to its end.
- `scan_name`, `scan_number`, `scan_symbol`: one token of a text.
- `scans_of_spelled`: every spelled text has tokens.
-/

namespace BinaryPatching

open Text Thumb

namespace Token

/-! ## Single tokens -/

variable {total : Nat} {previous : Option Token}

/-- **Maximal munch**: a word that ends is read up to its end. -/
theorem takeWhile_word {p : Char → Bool} {word rest : List Char} (hword : ∀ c ∈ word, p c = true)
    (hmarks : marks.any p = false) (hend : endsWord rest = true) :
    (word ++ rest).takeWhile p = word ∧ (word ++ rest).dropWhile p = rest := by
  rw [List.takeWhile_append_of_pos hword, List.dropWhile_append_of_pos hword]
  cases rest with
  | nil => exact ⟨List.append_nil _, rfl⟩
  | cons c rest =>
    have hc : ¬p c = true := by
      rw [not_of_mark hmarks hend]
      exact Bool.false_ne_true
    rw [List.takeWhile_cons_of_neg hc, List.dropWhile_cons_of_neg hc]
    exact ⟨List.append_nil _, rfl⟩

/-- A name goes on with letters, digits and points. -/
theorem continuesName_of_continuesMnemonic {c : Char} (h : continuesMnemonic c = true) : continuesName c = true := by
  rcases Bool.or_eq_true_iff.1 h with h | h
  · rw [continuesName, isAlphanum_of_isPlain h]
    rfl
  · rw [beq_iff_eq.1 h]
    rfl

theorem continuesNumber_of_isPlain {c : Char} (h : isPlain c = true) : continuesNumber c = true := by
  rw [continuesNumber, isAlphanum_of_isPlain h]
  rfl

theorem scan_nil : scan total previous [] = .ok [] := by
  rw [scan.eq_def]

theorem scan_blank {c : Char} {rest : List Char} (h : isBlank c = true) :
    scan total previous (c :: rest) = scan total previous rest := by
  rw [scan.eq_def]
  dsimp only
  rw [if_pos h]

/-- **A name** that ends is a token. -/
theorem scan_name {c : Char} {word rest : List Char} (hc : c.isLower = true)
    (hword : ∀ d ∈ word, continuesMnemonic d = true) (hend : endsWord rest = true) :
    scan total previous (c :: (word ++ rest)) =
      (scan total (some (name (String.ofList (c :: word)))) rest).map (name (String.ofList (c :: word)) :: ·) := by
  have hblank : isBlank c = false := isBlank_of_isPlain (Bool.or_eq_true_iff.2 (.inl hc))
  have hbegins : beginsName c = true := by
    show (c.isUpper || c.isLower || c == '_') = true
    rw [hc, Bool.or_true]
    rfl
  obtain ⟨htake, hdrop⟩ :=
    takeWhile_word (fun d hd => continuesName_of_continuesMnemonic (hword d hd)) (by decide) hend
  rw [scan.eq_def]
  dsimp only
  rw [hblank, if_neg Bool.false_ne_true, if_pos hbegins, htake, hdrop]

/-- A digit begins no name. -/
theorem beginsName_of_isDigit {c : Char} (h : c.isDigit = true) : beginsName c = false := by
  obtain ⟨_, hhigh⟩ := Bool.and_eq_true_iff.1 h
  have hle : c.toNat ≤ 0x39 := of_decide_eq_true hhigh
  have hall : ∀ n < 0x3A, beginsName (Char.ofNat n) = false := by decide
  have hc := hall c.toNat (by omega)
  rwa [Char.ofNat_toNat] at hc

/-- **A number** that ends is a token, with or without its sign. -/
theorem scan_number {c : Char} {word rest : List Char} {v : Int}
    (hbegins : beginsNumber previous c (word ++ rest) = true) (hname : beginsName c = false)
    (hblank : isBlank c = false) (hword : ∀ d ∈ word, isPlain d = true)
    (hv : parseNumber (String.ofList (c :: word)) = some v) (hend : endsWord rest = true) :
    scan total previous (c :: (word ++ rest)) =
      (scan total (some (number (String.ofList (c :: word)) v)) rest).map
        (number (String.ofList (c :: word)) v :: ·) := by
  obtain ⟨htake, hdrop⟩ := takeWhile_word (fun d hd => continuesNumber_of_isPlain (hword d hd)) (by decide) hend
  rw [scan.eq_def]
  dsimp only
  rw [hblank, if_neg Bool.false_ne_true, hname, if_neg Bool.false_ne_true, if_pos hbegins, htake, hdrop, hv]

/-- **A symbol** is a token where neither a name nor a number begins. -/
theorem scan_symbol {c : Char} {rest : List Char} {token : Token} (hblank : isBlank c = false)
    (hname : beginsName c = false) (hnumber : beginsNumber previous c rest = false) (hquote : c ≠ '"')
    (hsymbol : ofSymbol? c = some token) :
    scan total previous (c :: rest) = (scan total (some token) rest).map (token :: ·) := by
  rw [scan.eq_def]
  dsimp only
  rw [hblank, if_neg Bool.false_ne_true, hname, if_neg Bool.false_ne_true, hnumber, if_neg Bool.false_ne_true,
    if_neg hquote, hsymbol]

/-! ## Spelled texts -/

/-- **A text that has tokens**, whatever stands before it. -/
def Scans (cs : List Char) : Prop := ∀ total previous, ∃ tokens, scan total previous cs = .ok tokens

/-- A token in front of a text that has tokens. -/
theorem Scans.exists_map {cs : List Char} (h : Scans cs) (total : Nat) (previous : Option Token) (token : Token) :
    ∃ tokens, (scan total previous cs).map (token :: ·) = .ok tokens := by
  obtain ⟨tokens, htokens⟩ := h total previous
  rw [htokens]
  exact ⟨token :: tokens, rfl⟩

/-- Every mark but the blank is a symbol, and no mark begins anything else. -/
theorem blank_or_symbol_of_mark {c : Char} (h : marks.contains c = true) :
    c = ' ' ∨ ∃ token, ofSymbol? c = some token ∧ isBlank c = false ∧ beginsName c = false ∧ c.isDigit = false ∧
      c ≠ '-' ∧ c ≠ '"' := by
  have hmem := List.contains_iff_mem.1 h
  simp only [marks, List.mem_cons, List.not_mem_nil, or_false] at hmem
  rcases hmem with rfl | rfl | rfl | rfl | rfl | rfl | rfl
  · exact .inl rfl
  all_goals exact .inr ⟨_, rfl, rfl, rfl, rfl, by decide, by decide⟩

theorem scans_mark {c : Char} {rest : List Char} (hmark : marks.contains c = true) (h : Scans rest) :
    Scans (c :: rest) := by
  intro total previous
  rcases blank_or_symbol_of_mark hmark with rfl | ⟨token, hsymbol, hblank, hname, hdigit, hminus, hquote⟩
  · rw [scan_blank rfl]
    exact h total previous
  · have hnumber : beginsNumber previous c rest = false := by
      rw [beginsNumber, hdigit, beq_false_of_ne hminus]
      rfl
    rw [scan_symbol hblank hname hnumber hquote hsymbol]
    exact h.exists_map total (some token) token

theorem scans_name {word rest : List Char} (hword : isName word = true) (hend : endsWord rest = true) (h : Scans rest) :
    Scans (word ++ rest) := by
  intro total previous
  cases word with
  | nil => cases hword
  | cons c word =>
    obtain ⟨hc, hrest⟩ := Bool.and_eq_true_iff.1 hword
    have hplain : ∀ d ∈ word, continuesMnemonic d = true := fun d hd =>
      Bool.or_eq_true_iff.2 (.inl (List.all_eq_true.1 hrest d hd))
    rw [List.cons_append, scan_name hc hplain hend]
    exact h.exists_map total _ _

/-- A text is a number with a minus sign in front exactly if it is one without. -/
theorem isSome_parseNumber_minus {word : List Char} (hblank : ∀ c ∈ word, isBlank c = false)
    (hfirst : word.head? ≠ some '-') :
    (parseNumber (String.ofList ('-' :: word))).isSome = (parseNumber (String.ofList word)).isSome := by
  have hword : trim word = word := trim_of_no_blank hblank
  have hsigned : trim ('-' :: word) = '-' :: word := by
    refine trim_of_no_blank fun c hc => ?_
    rcases List.mem_cons.1 hc with rfl | hc
    · rfl
    · exact hblank c hc
  unfold parseNumber
  rw [String.toList_ofList, String.toList_ofList, hword, hsigned, Option.isSome_map, Option.isSome_map]
  cases word with
  | nil => rfl
  | cons c digits =>
    have hc : c ≠ '-' := fun heq => hfirst (congrArg some heq)
    simp only [List.cons.injEq, hc, false_and, imp_false, not_false_eq_true, implies_true]

/-- A number can be read with a minus sign as well. -/
theorem exists_parseNumber_negative {word : List Char} (h : isNumber word = true) :
    ∃ v, parseNumber (String.ofList ('-' :: word)) = some v := by
  obtain ⟨hfirst, hplain, hvalue⟩ := isNumber_iff.1 h
  refine Option.isSome_iff_exists.1 ?_
  rw [isSome_parseNumber_minus fun c hc => isBlank_of_isPlain (hplain c hc)]
  · exact hvalue
  · intro hminus
    rw [hminus] at hfirst
    cases hfirst

theorem scans_unsigned {word rest : List Char} (hword : isNumber word = true) (hend : endsWord rest = true)
    (h : Scans rest) : Scans (word ++ rest) := by
  obtain ⟨hfirst, hplain, hvalue⟩ := isNumber_iff.1 hword
  obtain ⟨v, hv⟩ := Option.isSome_iff_exists.1 hvalue
  intro total previous
  cases word with
  | nil => cases hfirst
  | cons c digits =>
    have hc : c.isDigit = true := hfirst
    have hdigits : ∀ d ∈ digits, isPlain d = true := fun d hd => hplain d (List.mem_cons_of_mem _ hd)
    have hblank : isBlank c = false := isBlank_of_isPlain (hplain c List.mem_cons_self)
    have hbegins : beginsNumber previous c (digits ++ rest) = true := by
      rw [beginsNumber, hc]
      rfl
    rw [List.cons_append, scan_number hbegins (beginsName_of_isDigit hc) hblank hdigits hv hend]
    exact h.exists_map total _ _

/-- **A number with its sign** has tokens wherever it stands. -/
theorem scans_number {sign word rest : List Char} (hsign : sign = [] ∨ sign = ['-']) (hword : isNumber word = true)
    (hend : endsWord rest = true) (h : Scans rest) : Scans (sign ++ word ++ rest) := by
  rcases hsign with rfl | rfl
  · exact scans_unsigned hword hend h
  · show Scans ('-' :: (word ++ rest))
    intro total previous
    by_cases hbegins : beginsNumber previous '-' (word ++ rest) = true
    · obtain ⟨v, hv⟩ := exists_parseNumber_negative hword
      rw [scan_number hbegins rfl rfl (isNumber_iff.1 hword).2.1 hv hend]
      exact h.exists_map total _ _
    · -- Behind an operand the sign is a token of its own, and the number is read without it.
      have hsymbol : ofSymbol? '-' = some (operator '-') := by decide
      rw [scan_symbol rfl rfl (Bool.eq_false_iff.2 hbegins) (by decide) hsymbol]
      exact (scans_unsigned hword hend h).exists_map total _ _

/-- Letters and digits are no marks of literals. -/
theorem filter_word {word : List Char} (h : ∀ c ∈ word, isPlain c = true) : word.filter (· != '#') = word := by
  refine List.filter_eq_self.2 fun c hc => bne_iff_ne.2 ?_
  rintro rfl
  exact absurd (h _ hc) (by decide)

theorem filter_mark {c : Char} {rest : List Char} (h : marks.contains c = true) :
    (c :: rest).filter (· != '#') = c :: rest.filter (· != '#') := by
  have hc : (c != '#') = true := of_mark (p := (· != '#')) (by decide) h
  rw [List.filter_cons, if_pos hc]

/-- What ends a word ends it without the marks of literals. -/
theorem endsWord_filter {rest : List Char} (h : endsWord rest = true) : endsWord (rest.filter (· != '#')) = true := by
  cases rest with
  | nil => rfl
  | cons c rest =>
    rw [filter_mark h]
    exact h

/-- **Every spelled text has tokens** without the marks of its literals. -/
theorem scans_of_spelled {cs : List Char} (h : Spelled cs) : Scans (cs.filter (· != '#')) := by
  induction h with
  | nil =>
    intro total previous
    exact ⟨[], scan_nil⟩
  | mark hmark _ ih =>
    rw [filter_mark hmark]
    exact scans_mark hmark ih
  | name hword hend _ ih =>
    rw [List.filter_append, filter_word (isPlain_of_isName hword)]
    exact scans_name hword (endsWord_filter hend) ih
  | @number sign word rest hsign hword hend _ ih =>
    have hsigns : sign.filter (· != '#') = sign := by rcases hsign with rfl | rfl <;> rfl
    show Scans ((sign ++ word ++ rest).filter (· != '#'))
    rw [List.filter_append, List.filter_append, hsigns, filter_word (isNumber_iff.1 hword).2.1]
    exact scans_number hsign hword (endsWord_filter hend) ih

end Token

end BinaryPatching
