import BinaryPatching.Assembly.Source
import BinaryPatching.Proofs.Pattern.Concatenation
import BinaryPatching.Proofs.Text.Hexadecimal

/-!
# `BinaryPatching.Proofs.Assembly.AddressLines` — the lines that name an address

A line of a fragment names an address in one of two forms. A branch has a mnemonic, for some a register with a comma, and
the address, with the mark of a literal or without; the definition of a label has the label, the word `EQU`, and the
address. The address is written in hexadecimal and may be of any size, and blanks may be all around. Here the forms are
given as they are written, and the lines that are read as such are just the lines of these forms whose address fits 63
bits.

## Contents
- `NamesNumber`, `IsRegisterOperand`, `NamesAddress`: the forms, with all their parts.
- `hexAddress?_eq_some_iff`: addresses.
- `IsCut`: a line by its first word and the blanks around it.
- `branchLine?_eq`, `equateLine?_eq`: what is read of a line that is cut.
- `addressLine?_eq_some_iff`: the lines that are read.
- `NamesAddress.unique`: a line names one address.
-/

namespace BinaryPatching

open Text
open Token (stops takeWhile_of_stops)

/-! ## The forms of lines -/

/-- **A number in hexadecimal** with blanks behind it, and its value. -/
inductive NamesNumber : List Char → Nat → Prop where
  /-- A mark of either case, digits, and blanks. -/
  | intro {mark : Char} {digits blanks : List Char} {t : Nat} (hmark : mark = 'x' ∨ mark = 'X') (hdigits : digits ≠ [])
    (hvalue : readDigits 16 0 digits = some t) (hblanks : ∀ c ∈ blanks, isBlank c = true) :
    NamesNumber ('0' :: mark :: digits ++ blanks) t

/-- **A register with a comma** and blanks behind it. -/
inductive IsRegisterOperand : List Char → Prop where
  /-- The letter of either case, a decimal number, a comma, and blanks around it. -/
  | intro {letter : Char} {digits gap blanks : List Char} (hletter : letter = 'r' ∨ letter = 'R') (hdigits : digits ≠ [])
    (hdecimal : ∀ c ∈ digits, isDecimal c = true) (hgap : ∀ c ∈ gap, isBlank c = true)
    (hblanks : ∀ c ∈ blanks, isBlank c = true) : IsRegisterOperand (letter :: digits ++ gap ++ ',' :: blanks)

/-- **A line that names an address**, with what stands before the address and its mark. -/
inductive NamesAddress : List Char → List Char → Nat → Prop where
  /-- A branch to the address, for some behind a register. -/
  | branch {indent word gap register mark number : List Char} {t : Nat} (hindent : ∀ c ∈ indent, isBlank c = true)
    (hword : isRelocatableBranch word = true) (hgap : ∀ c ∈ gap, isBlank c = true) (hsome : gap ≠ [])
    (hregister : register = [] ∨ IsRegisterOperand register) (hmark : mark = [] ∨ mark = ['#'])
    (hnumber : NamesNumber number t) :
    NamesAddress (indent ++ word ++ gap ++ register ++ mark ++ number) (indent ++ word ++ gap ++ register) t
  /-- The definition of a label as the address. -/
  | equate {indent label gap word gap' number : List Char} {t : Nat} (hindent : ∀ c ∈ indent, isBlank c = true)
    (hlabel : isLabel label = true) (hgap : ∀ c ∈ gap, isBlank c = true) (hsome : gap ≠ [])
    (hword : word.map Char.toLower = ['e', 'q', 'u']) (hgap' : ∀ c ∈ gap', isBlank c = true) (hsome' : gap' ≠ [])
    (hnumber : NamesNumber number t) :
    NamesAddress (indent ++ label ++ gap ++ word ++ gap' ++ number) (indent ++ label ++ gap ++ word ++ gap') t

/-! ## Words and blanks -/

/-- The blanks, by their codes. -/
def blankCodes : List Nat :=
  [9, 10, 11, 12, 13, 0x20, 0x85, 0xA0, 0x1680, 0x2000, 0x2001, 0x2002, 0x2003, 0x2004, 0x2005, 0x2006, 0x2007, 0x2008,
    0x2009, 0x200A, 0x2028, 0x2029, 0x202F, 0x205F, 0x3000]

/-- What holds of each of these holds of every blank. -/
theorem forall_isBlank {p : Char → Prop} (hp : ∀ n ∈ blankCodes, p (Char.ofNat n)) {c : Char} (h : isBlank c = true) :
    p c := by
  have hmem : c.toNat ∈ blankCodes := by
    simp only [isBlank, Bool.or_eq_true, Bool.and_eq_true, decide_eq_true_eq, beq_iff_eq] at h
    simp only [blankCodes, List.mem_cons, List.not_mem_nil, or_false]
    omega
  have hc := hp c.toNat hmem
  rwa [Char.ofNat_toNat] at hc

/-- What holds of no blank holds of plain characters only. -/
theorem isBlank_eq_false {p : Char → Bool} (hp : ∀ n ∈ blankCodes, p (Char.ofNat n) = false) {c : Char}
    (h : p c = true) : isBlank c = false := by
  rw [← Bool.not_eq_true]
  intro hblank
  rw [forall_isBlank (p := (p · = false)) hp hblank] at h
  cases h

/-- A word has no blanks if its small form has none, since blanks are no letters. -/
theorem isBlank_of_map {f : Char → Char} (hf : ∀ n ∈ blankCodes, f (Char.ofNat n) = Char.ofNat n) {word : List Char}
    (h : (word.map f).all (fun c => !isBlank c) = true) : ∀ c ∈ word, isBlank c = false := by
  intro c hc
  rw [← Bool.not_eq_true]
  intro hblank
  have hnot := List.all_eq_true.1 h (f c) (List.mem_map_of_mem hc)
  rw [forall_isBlank (p := fun c => f c = c) hf hblank, hblank] at hnot
  cases hnot

/-- A mnemonic is a word. -/
theorem isBlank_of_isRelocatableBranch {word : List Char} (h : isRelocatableBranch word = true) :
    word ≠ [] ∧ ∀ c ∈ word, isBlank c = false := by
  obtain ⟨m, hm, hspelled⟩ := List.any_eq_true.1 h
  have hsmall : word.map foldLetter ∈ [m.toList, m.toList ++ ['.', 'w'], m.toList ++ ['.', 'n']] := by
    simpa [or_assoc] using hspelled
  have hplain : ∀ m ∈ relocatableBranches, ∀ small ∈ [m.toList, m.toList ++ ['.', 'w'], m.toList ++ ['.', 'n']],
      small ≠ [] ∧ small.all (fun c => !isBlank c) = true := by decide
  obtain ⟨hsome, hnone⟩ := hplain m hm _ hsmall
  exact ⟨fun hnil => hsome (by rw [hnil]; rfl), isBlank_of_map (by decide) hnone⟩

/-- So is the name of a label. -/
theorem isBlank_of_isLabel {label : List Char} (h : isLabel label = true) :
    label ≠ [] ∧ ∀ c ∈ label, isBlank c = false := by
  cases label with
  | nil => cases h
  | cons c rest =>
    obtain ⟨hfirst, hrest⟩ := Bool.and_eq_true_iff.1 h
    refine ⟨List.cons_ne_nil c rest, ?_⟩
    intro d hd
    rcases List.mem_cons.1 hd with rfl | hd
    · exact isBlank_eq_false (p := fun c => (foldLetter c).isAlpha || c == '_') (by decide) hfirst
    · exact isBlank_eq_false (p := isWord) (by decide +kernel) (List.all_eq_true.1 hrest d hd)

/-- And the word of a definition. -/
theorem isBlank_of_equate {word : List Char} (h : word.map Char.toLower = ['e', 'q', 'u']) :
    word ≠ [] ∧ ∀ c ∈ word, isBlank c = false := by
  refine ⟨fun hnil => (by rw [hnil] at h; cases h), isBlank_of_map (f := Char.toLower) (by decide) ?_⟩
  rw [h]
  decide

/-! ## Addresses -/

/-- A number has no blanks up to those behind it. -/
theorem isBlank_of_readDigits {mark : Char} {digits : List Char} {t : Nat} (hmark : mark = 'x' ∨ mark = 'X')
    (h : readDigits 16 0 digits = some t) : ∀ c ∈ '0' :: mark :: digits, isBlank c = false := by
  have hdigits : digits.all (isDigitOf 16) = true := by rw [← isSome_readDigits, h]; rfl
  intro c hc
  rcases List.mem_cons.1 hc with rfl | hc
  · rfl
  rcases List.mem_cons.1 hc with rfl | hc
  · rcases hmark with rfl | rfl <;> rfl
  · exact isBlank_eq_false (p := isDigitOf 16) (by decide) (List.all_eq_true.1 hdigits c hc)

/-- Behind a word there is no more of it where there are blanks or nothing. -/
theorem stops_of_blanks {blanks : List Char} (h : ∀ c ∈ blanks, isBlank c = true) :
    stops (fun c => !isBlank c) blanks = true := by
  cases blanks with
  | nil => rfl
  | cons c blanks => simp [stops, h c List.mem_cons_self]

/-- The low word of a number that is not negative. -/
theorem lowWord_natCast (t : Nat) : lowWord (t : Int) = UInt32.ofNat t := by
  have hmod : ((t : Int) % 0x100000000).toNat = t % 2 ^ 32 := by omega
  rw [lowWord, hmod]
  exact UInt32.toNat_inj.1 (by simp)

/-- **An address** is read from a number of its form. -/
theorem hexAddress?_of_namesNumber {cs : List Char} {t : Nat} (h : NamesNumber cs t) :
    hexAddress? cs = if t < 0x8000000000000000 then some (UInt32.ofNat t) else none := by
  obtain @⟨mark, digits, blanks, _, hmark, hdigits, hvalue, hblanks⟩ := h
  have hplain := isBlank_of_readDigits hmark hvalue
  have hword : ∀ c ∈ '0' :: mark :: digits, (!isBlank c) = true := fun c hc => by rw [hplain c hc]; rfl
  obtain ⟨htake, hdrop⟩ := takeWhile_of_stops hword (stops_of_blanks hblanks)
  have hafter : afterHexMark ('0' :: mark :: digits) = some digits := afterHexMark_eq_some_iff.2 ⟨mark, hmark, rfl⟩
  have hall : digits.all (isDigitOf 16) = true := by rw [← isSome_readDigits, hvalue]; rfl
  have hbehind : blanks.all isBlank = true := List.all_eq_true.2 hblanks
  rw [hexAddress?, htake, hdrop, hafter]
  dsimp only
  have hnumber : (true && !false && true) = true := rfl
  rw [hbehind, hall, List.isEmpty_eq_false_iff.2 hdigits, if_pos hnumber,
    parseNumber_eq_of_readDigits hmark hdigits hplain hvalue]
  by_cases ht : t < 0x8000000000000000
  · rw [if_pos ht, if_pos ht, Option.map_some, lowWord_natCast]
  · rw [if_neg ht, if_neg ht]
    rfl

/-- Only numbers of the form are read. -/
theorem exists_namesNumber_of_hexAddress? {cs : List Char} {w : UInt32} (h : hexAddress? cs = some w) :
    ∃ t, NamesNumber cs t := by
  unfold hexAddress? at h
  dsimp only at h
  split at h
  · rename_i digits hdigits
    split at h
    · rename_i hform
      obtain ⟨hsome, hall⟩ := Bool.and_eq_true_iff.1 hform
      obtain ⟨hblanks, hnonempty⟩ := Bool.and_eq_true_iff.1 hsome
      obtain ⟨mark, hmark, hnumber⟩ := afterHexMark_eq_some_iff.1 hdigits
      obtain ⟨t, hvalue⟩ := Option.isSome_iff_exists.1 ((isSome_readDigits 16 0 digits).trans hall)
      refine ⟨t, ?_⟩
      rw [← List.takeWhile_append_dropWhile (p := fun c => !isBlank c) (l := cs), hnumber]
      refine .intro hmark ?_ hvalue (List.all_eq_true.1 hblanks)
      rintro rfl
      cases hnonempty
    · cases h
  · cases h

theorem hexAddress?_eq_some_iff {cs : List Char} {w : UInt32} :
    hexAddress? cs = some w ↔ ∃ t, NamesNumber cs t ∧ t < 0x8000000000000000 ∧ w = UInt32.ofNat t := by
  constructor
  · intro h
    obtain ⟨t, ht⟩ := exists_namesNumber_of_hexAddress? h
    rw [hexAddress?_of_namesNumber ht] at h
    split at h
    · rename_i hlt
      exact ⟨t, ht, hlt, (Option.some.inj h).symm⟩
    · cases h
  · rintro ⟨t, ht, hlt, rfl⟩
    rw [hexAddress?_of_namesNumber ht, if_pos hlt]

/-- A number has one value. -/
theorem NamesNumber.unique {cs : List Char} {t t' : Nat} (h : NamesNumber cs t) (h' : NamesNumber cs t') : t = t' := by
  obtain @⟨mark, digits, blanks, _, hmark, _, hvalue, hblanks⟩ := h
  generalize hcs : '0' :: mark :: digits ++ blanks = cs at h'
  obtain @⟨mark', digits', blanks', _, hmark', _, hvalue', hblanks'⟩ := h'
  have htake {mark : Char} {digits blanks : List Char} {t : Nat} (hmark : mark = 'x' ∨ mark = 'X')
      (hvalue : readDigits 16 0 digits = some t) (hblanks : ∀ c ∈ blanks, isBlank c = true) :
      ('0' :: mark :: digits ++ blanks).takeWhile (fun c => !isBlank c) = '0' :: mark :: digits :=
    (takeWhile_of_stops (fun c hc => by rw [isBlank_of_readDigits hmark hvalue c hc]; rfl) (stops_of_blanks hblanks)).1
  have hnumber := htake hmark hvalue hblanks
  rw [hcs, htake hmark' hvalue' hblanks', List.cons.injEq, List.cons.injEq] at hnumber
  rw [hnumber.2.2, hvalue] at hvalue'
  exact Option.some.inj hvalue'

/-- A number begins with a zero. -/
theorem NamesNumber.head? {cs : List Char} {t : Nat} (h : NamesNumber cs t) : cs.head? = some '0' := by
  cases h
  rfl

/-! ## Lines that are cut -/

/-- What is left of a text behind its first stretch. -/
theorem drop_length_takeWhile (p : Char → Bool) (cs : List Char) : cs.drop (cs.takeWhile p).length = cs.dropWhile p := by
  have hdrop : (cs.takeWhile p ++ cs.dropWhile p).drop (cs.takeWhile p).length = cs.dropWhile p := List.drop_left
  rwa [List.takeWhile_append_dropWhile] at hdrop

/-- **A line by its first word**: the blanks before it, the word, the blanks behind it, and the rest. -/
structure IsCut (line indent word gap rest : List Char) : Prop where
  /-- These are all of the line. -/
  line_eq : line = indent ++ (word ++ (gap ++ rest))
  /-- The indent is as long as the blanks go. -/
  takeWhile_line : line.takeWhile isBlank = indent
  /-- The word is as long as there are none. -/
  takeWhile_word : (word ++ (gap ++ rest)).takeWhile (fun c => !isBlank c) = word
  /-- The gap is again as long as the blanks go. -/
  takeWhile_gap : (gap ++ rest).takeWhile isBlank = gap

/-- Every line can be cut. -/
theorem exists_isCut (line : List Char) : ∃ indent word gap rest, IsCut line indent word gap rest := by
  have hsplit (p : Char → Bool) (cs : List Char) : cs.takeWhile p ++ cs.dropWhile p = cs := List.takeWhile_append_dropWhile
  refine ⟨line.takeWhile isBlank, (line.dropWhile isBlank).takeWhile fun c => !isBlank c,
    ((line.dropWhile isBlank).dropWhile fun c => !isBlank c).takeWhile isBlank,
    ((line.dropWhile isBlank).dropWhile fun c => !isBlank c).dropWhile isBlank, ?_, rfl, ?_, ?_⟩
  · rw [hsplit, hsplit, hsplit]
  · rw [hsplit, hsplit]
  · rw [hsplit]

/-- Words with blanks around them are cut there. -/
theorem isCut_of_words {indent word gap rest : List Char} (hindent : ∀ c ∈ indent, isBlank c = true)
    (hword : word ≠ [] ∧ ∀ c ∈ word, isBlank c = false) (hgap : ∀ c ∈ gap, isBlank c = true) (hsome : gap ≠ [])
    (hrest : stops isBlank rest = true) : IsCut (indent ++ (word ++ (gap ++ rest))) indent word gap rest := by
  obtain ⟨hnonempty, hplain⟩ := hword
  refine ⟨rfl, (takeWhile_of_stops hindent ?_).1, (takeWhile_of_stops ?_ ?_).1, (takeWhile_of_stops hgap hrest).1⟩
  · cases word with
    | nil => exact absurd rfl hnonempty
    | cons c word => simp [stops, hplain c List.mem_cons_self]
  · exact fun c hc => by rw [hplain c hc]; rfl
  · cases gap with
    | nil => exact absurd rfl hsome
    | cons c gap => simp [stops, hgap c List.mem_cons_self]

/-- A text without the mark of a literal at its front. -/
def withoutMark (cs : List Char) : List Char :=
  match cs with
  | '#' :: number => number
  | _ => cs

/-- **What is read of a line as a branch**, by its parts. -/
theorem branchLine?_eq {line indent word gap rest : List Char} (h : IsCut line indent word gap rest) :
    branchLine? line = if isRelocatableBranch word && !gap.isEmpty then
        (hexAddress? (withoutMark (rest.drop (registerOperand rest).length))).map fun target =>
          ⟨indent ++ word ++ gap ++ registerOperand rest, target⟩
      else none := by
  have hindent : line.drop indent.length = word ++ (gap ++ rest) := by rw [h.line_eq, List.drop_left]
  have hword : (word ++ (gap ++ rest)).drop word.length = gap ++ rest := List.drop_left
  have hgap : (gap ++ rest).drop gap.length = rest := List.drop_left
  unfold branchLine?
  simp only [h.takeWhile_line, hindent, h.takeWhile_word, hword, h.takeWhile_gap, hgap]
  rfl

/-- **What is read of a line as the definition of a label**, by its parts. -/
theorem equateLine?_eq {line indent label gap rest : List Char} (h : IsCut line indent label gap rest) :
    equateLine? line =
      (let word := rest.takeWhile fun c => !isBlank c
       let gap' := (rest.dropWhile fun c => !isBlank c).takeWhile isBlank
       let number := (rest.dropWhile fun c => !isBlank c).dropWhile isBlank
       if isLabel label && word.map Char.toLower == ['e', 'q', 'u'] && !gap'.isEmpty then
         (hexAddress? number).map fun target => ⟨indent ++ label ++ gap ++ word ++ gap', target⟩
       else none) := by
  have hindent : line.drop indent.length = label ++ (gap ++ rest) := by rw [h.line_eq, List.drop_left]
  have hlabel : (label ++ (gap ++ rest)).drop label.length = gap ++ rest := List.drop_left
  have hgap : (gap ++ rest).drop gap.length = rest := List.drop_left
  unfold equateLine?
  simp only [h.takeWhile_line, hindent, h.takeWhile_word, hlabel, h.takeWhile_gap, hgap, drop_length_takeWhile]

/-! ## Branches -/

/-- The indent and the gap of a line that is cut are blank. -/
theorem IsCut.isBlank {line indent word gap rest : List Char} (h : IsCut line indent word gap rest) :
    (∀ c ∈ indent, Text.isBlank c = true) ∧ ∀ c ∈ gap, Text.isBlank c = true := by
  rw [← h.takeWhile_line, ← h.takeWhile_gap]
  exact ⟨List.all_eq_true.1 List.all_takeWhile, List.all_eq_true.1 List.all_takeWhile⟩

/-- A register is read up to what is behind it. -/
theorem registerOperand_append {register rest : List Char} (h : IsRegisterOperand register)
    (hrest : stops isBlank rest = true) : registerOperand (register ++ rest) = register := by
  obtain @⟨letter, digits, gap, blanks, hletter, hdigits, hdecimal, hgap, hblanks⟩ := h
  have hend : stops isDecimal (gap ++ ',' :: (blanks ++ rest)) = true := by
    cases gap with
    | nil => rfl
    | cons c gap =>
      have hnot : isDecimal c = false :=
        forall_isBlank (p := (isDecimal · = false)) (by decide +kernel) (hgap c List.mem_cons_self)
      simp [stops, hnot]
  obtain ⟨hnumber, hbehind⟩ := takeWhile_of_stops hdecimal hend
  have hcomma : (gap ++ ',' :: (blanks ++ rest)).takeWhile isBlank = gap := (takeWhile_of_stops hgap rfl).1
  have hform : ((letter == 'r' || letter == 'R') && !digits.isEmpty) = true := by
    rw [List.isEmpty_eq_false_iff.2 hdigits]
    rcases hletter with rfl | rfl <;> rfl
  rw [List.append_assoc, List.append_assoc, List.cons_append, List.cons_append]
  unfold registerOperand
  simp only [hnumber, List.drop_left, hcomma, (takeWhile_of_stops hblanks hrest).1, hform, if_true, List.append_assoc,
    List.cons_append]

/-- **A register is read** from the front of a text, or nothing. -/
theorem exists_eq_registerOperand_append (cs : List Char) : ∃ rest, cs = registerOperand cs ++ rest ∧
    (registerOperand cs = [] ∨ IsRegisterOperand (registerOperand cs)) := by
  have hnone : ∃ rest, cs = [] ++ rest ∧ (([] : List Char) = [] ∨ IsRegisterOperand []) := ⟨cs, rfl, .inl rfl⟩
  unfold registerOperand
  split
  · rename_i c rest
    simp only [drop_length_takeWhile]
    split
    · rename_i behind hbehind
      split
      · rename_i hform
        obtain ⟨hletter, hdigits⟩ := Bool.and_eq_true_iff.1 hform
        have hrest : rest = rest.takeWhile isDecimal ++ ((rest.dropWhile isDecimal).takeWhile isBlank ++ ',' :: behind) := by
          rw [← hbehind, List.takeWhile_append_dropWhile, List.takeWhile_append_dropWhile]
        refine ⟨behind.dropWhile isBlank, ?_, .inr (.intro ?_ ?_ ?_ ?_ ?_)⟩
        · rw [List.append_assoc, List.append_assoc, List.cons_append, List.cons_append, List.takeWhile_append_dropWhile,
            ← hrest]
        · simpa using hletter
        · rintro hnil
          rw [hnil] at hdigits
          cases hdigits
        · exact List.all_eq_true.1 List.all_takeWhile
        · exact List.all_eq_true.1 List.all_takeWhile
        · exact List.all_eq_true.1 List.all_takeWhile
      · exact hnone
    · exact hnone
  · exact hnone

theorem registerOperand_eq_nil {c : Char} (hsmall : c ≠ 'r') (hcapital : c ≠ 'R') (rest : List Char) :
    registerOperand (c :: rest) = [] := by
  have hletter : (c == 'r' || c == 'R') = false := by simp [hsmall, hcapital]
  unfold registerOperand
  dsimp only
  split
  · rw [hletter, Bool.false_and, if_neg Bool.false_ne_true]
  · rfl

/-- Every text is one without a mark, behind a mark or not. -/
theorem exists_eq_append_withoutMark (cs : List Char) :
    ∃ mark, (mark = [] ∨ mark = ['#']) ∧ cs = mark ++ withoutMark cs := by
  unfold withoutMark
  split
  · exact ⟨['#'], .inr rfl, rfl⟩
  · exact ⟨[], .inl rfl, rfl⟩

/-- **A number with its mark** is neither blank nor a register at its front. -/
theorem NamesNumber.marked {mark cs : List Char} {t : Nat} (h : NamesNumber cs t) (hmark : mark = [] ∨ mark = ['#']) :
    stops isBlank (mark ++ cs) = true ∧ registerOperand (mark ++ cs) = [] ∧ withoutMark (mark ++ cs) = cs := by
  cases h
  rcases hmark with rfl | rfl
  · exact ⟨rfl, registerOperand_eq_nil (by decide) (by decide) _, rfl⟩
  · exact ⟨rfl, registerOperand_eq_nil (by decide) (by decide) _, rfl⟩

/-- **A branch** is read as one. -/
theorem branchLine?_of_branch {indent word gap register mark number : List Char} {t : Nat}
    (hindent : ∀ c ∈ indent, isBlank c = true) (hword : isRelocatableBranch word = true)
    (hgap : ∀ c ∈ gap, isBlank c = true) (hsome : gap ≠ []) (hregister : register = [] ∨ IsRegisterOperand register)
    (hmark : mark = [] ∨ mark = ['#']) (hnumber : NamesNumber number t) (ht : t < 0x8000000000000000) :
    branchLine? (indent ++ word ++ gap ++ register ++ mark ++ number) =
      some ⟨indent ++ word ++ gap ++ register, UInt32.ofNat t⟩ := by
  obtain ⟨hends, hnone, hunmarked⟩ := hnumber.marked hmark
  have hread : registerOperand (register ++ (mark ++ number)) = register := by
    rcases hregister with rfl | hregister
    · exact hnone
    · exact registerOperand_append hregister hends
  have hrest : stops isBlank (register ++ (mark ++ number)) = true := by
    rcases hregister with rfl | hregister
    · exact hends
    · obtain ⟨hletter, _, _, _, _⟩ := hregister
      rcases hletter with rfl | rfl <;> rfl
  have hcut := isCut_of_words hindent (isBlank_of_isRelocatableBranch hword) hgap hsome hrest
  have hform : (isRelocatableBranch word && !gap.isEmpty) = true := by
    rw [hword, List.isEmpty_eq_false_iff.2 hsome]
    rfl
  simp only [List.append_assoc] at hcut ⊢
  rw [branchLine?_eq hcut, if_pos hform, hread, List.drop_left, hunmarked,
    hexAddress?_eq_some_iff.2 ⟨t, hnumber, ht, rfl⟩]
  simp only [Option.map_some, List.append_assoc]

/-- **What is read as a branch** is one. -/
theorem namesAddress_of_branchLine? {line : List Char} {l : AddressLine} (h : branchLine? line = some l) :
    ∃ t, NamesAddress line l.before t ∧ t < 0x8000000000000000 ∧ l.target = UInt32.ofNat t := by
  obtain ⟨indent, word, gap, rest, hcut⟩ := exists_isCut line
  rw [branchLine?_eq hcut] at h
  split at h
  · rename_i hform
    obtain ⟨hword, hgap⟩ := Bool.and_eq_true_iff.1 hform
    obtain ⟨w, hw, rfl⟩ := Option.map_eq_some_iff.1 h
    obtain ⟨t, hnumber, ht, rfl⟩ := hexAddress?_eq_some_iff.1 hw
    obtain ⟨behind, hbehind, hregister⟩ := exists_eq_registerOperand_append rest
    generalize registerOperand rest = register at hbehind hregister hnumber
    subst hbehind
    rw [List.drop_left] at hnumber
    obtain ⟨mark, hmark, hmarked⟩ := exists_eq_append_withoutMark behind
    refine ⟨t, ?_, ht, rfl⟩
    have hsome : gap ≠ [] := by
      rintro rfl
      cases hgap
    have hline := NamesAddress.branch hcut.isBlank.1 hword hcut.isBlank.2 hsome hregister hmark hnumber
    rw [hcut.line_eq, hmarked]
    simpa only [List.append_assoc] using hline
  · cases h

/-! ## Definitions of labels -/

/-- **The definition of a label** is read as one, and not as a branch. -/
theorem addressLine?_of_equate {indent label gap word gap' number : List Char} {t : Nat}
    (hindent : ∀ c ∈ indent, isBlank c = true) (hlabel : isLabel label = true) (hgap : ∀ c ∈ gap, isBlank c = true)
    (hsome : gap ≠ []) (hword : word.map Char.toLower = ['e', 'q', 'u']) (hgap' : ∀ c ∈ gap', isBlank c = true)
    (hsome' : gap' ≠ []) (hnumber : NamesNumber number t) (ht : t < 0x8000000000000000) :
    addressLine? (indent ++ label ++ gap ++ word ++ gap' ++ number) =
      some ⟨indent ++ label ++ gap ++ word ++ gap', UInt32.ofNat t⟩ := by
  obtain ⟨hnonempty, hplain⟩ := isBlank_of_equate hword
  have hstart : ∃ c others, word = c :: others ∧ c.toLower = 'e' := by
    cases word with
    | nil => cases hword
    | cons c others => exact ⟨c, others, rfl, (List.cons.inj hword).1⟩
  obtain ⟨c, others, hfirst, hletter⟩ := hstart
  have hrest : stops isBlank (word ++ (gap' ++ number)) = true := by
    rw [hfirst]
    simp [stops, hplain c (hfirst ▸ List.mem_cons_self)]
  have hcut := isCut_of_words hindent (isBlank_of_isLabel hlabel) hgap hsome hrest
  -- What is behind the first word begins with the letter E, so neither a register nor an address is there.
  have hbranch : branchLine? (indent ++ (label ++ (gap ++ (word ++ (gap' ++ number))))) = none := by
    rw [branchLine?_eq hcut]
    have hregister : registerOperand (word ++ (gap' ++ number)) = [] := by
      rw [hfirst]
      refine registerOperand_eq_nil ?_ ?_ _ <;> rintro rfl <;> cases hletter
    have haddress : hexAddress? (withoutMark (word ++ (gap' ++ number))) = none := by
      rw [Option.eq_none_iff_forall_ne_some]
      intro w hw
      obtain ⟨_, hnamed⟩ := exists_namesNumber_of_hexAddress? hw
      have hzero := hnamed.head?
      rw [hfirst] at hzero
      unfold withoutMark at hzero
      split at hzero
      · rename_i heq
        rw [(List.cons.inj heq).1] at hletter
        cases hletter
      · rw [Option.some.inj hzero] at hletter
        cases hletter
    rw [hregister, List.length_nil, List.drop_zero, haddress, Option.map_none, ite_self]
  have hend : stops (fun c => !isBlank c) (gap' ++ number) = true := by
    cases gap' with
    | nil => exact absurd rfl hsome'
    | cons d gap' => simp [stops, hgap' d List.mem_cons_self]
  obtain ⟨hwordEnd, hbehind⟩ := takeWhile_of_stops (p := fun c => !isBlank c)
    (fun d hd => by rw [hplain d hd]; rfl) hend
  obtain ⟨hgapEnd, hleft⟩ := takeWhile_of_stops hgap' (hnumber.marked (.inl rfl)).1
  have hform : (isLabel label && word.map Char.toLower == ['e', 'q', 'u'] && !gap'.isEmpty) = true := by
    rw [hlabel, hword, List.isEmpty_eq_false_iff.2 hsome']
    rfl
  simp only [List.nil_append] at hgapEnd hleft
  simp only [List.append_assoc] at hcut hbranch ⊢
  rw [addressLine?, hbranch, Option.none_or, equateLine?_eq hcut]
  simp only [hwordEnd, hbehind, hgapEnd, hleft]
  rw [if_pos hform, hexAddress?_eq_some_iff.2 ⟨t, hnumber, ht, rfl⟩]
  simp only [Option.map_some, List.append_assoc]

/-- **What is read as the definition of a label** is one. -/
theorem namesAddress_of_equateLine? {line : List Char} {l : AddressLine} (h : equateLine? line = some l) :
    ∃ t, NamesAddress line l.before t ∧ t < 0x8000000000000000 ∧ l.target = UInt32.ofNat t := by
  obtain ⟨indent, label, gap, rest, hcut⟩ := exists_isCut line
  rw [equateLine?_eq hcut] at h
  dsimp only at h
  split at h
  · rename_i hform
    obtain ⟨hlabel, hgap'⟩ := Bool.and_eq_true_iff.1 hform
    obtain ⟨hlabel, hword⟩ := Bool.and_eq_true_iff.1 hlabel
    obtain ⟨w, hw, rfl⟩ := Option.map_eq_some_iff.1 h
    obtain ⟨t, hnumber, ht, rfl⟩ := hexAddress?_eq_some_iff.1 hw
    have hsome' : (rest.dropWhile fun c => !isBlank c).takeWhile isBlank ≠ [] := by
      intro hnil
      rw [hnil] at hgap'
      cases hgap'
    -- Without a gap the label would go on with the word behind it.
    have hsome : gap ≠ [] := by
      rintro rfl
      have htake := hcut.takeWhile_word
      rw [List.nil_append, List.takeWhile_append_of_pos] at htake
      · have hnil := List.append_right_eq_self.1 htake
        rw [hnil] at hword
        cases hword
      · exact fun c hc => by rw [(isBlank_of_isLabel hlabel).2 c hc]; rfl
    have hline := NamesAddress.equate hcut.isBlank.1 hlabel hcut.isBlank.2 hsome (beq_iff_eq.1 hword)
      (List.all_eq_true.1 List.all_takeWhile) hsome' hnumber
    refine ⟨t, ?_, ht, rfl⟩
    rw [hcut.line_eq]
    simp only [List.append_assoc, List.takeWhile_append_dropWhile] at hline ⊢
    exact hline
  · cases h

/-! ## Both forms -/

/-- A line that names an address is read, if the address fits 63 bits. -/
theorem NamesAddress.addressLine?_eq {line before : List Char} {t : Nat} (h : NamesAddress line before t)
    (ht : t < 0x8000000000000000) : addressLine? line = some ⟨before, UInt32.ofNat t⟩ := by
  cases h with
  | branch hindent hword hgap hsome hregister hmark hnumber =>
    rw [addressLine?, branchLine?_of_branch hindent hword hgap hsome hregister hmark hnumber ht, Option.some_or]
  | equate hindent hlabel hgap hsome hword hgap' hsome' hnumber =>
    exact addressLine?_of_equate hindent hlabel hgap hsome hword hgap' hsome' hnumber ht

/-- **The lines that are read** are the ones of either form whose address fits 63 bits, of which the low word is taken. -/
theorem addressLine?_eq_some_iff {line : List Char} {l : AddressLine} :
    addressLine? line = some l ↔
      ∃ t, NamesAddress line l.before t ∧ t < 0x8000000000000000 ∧ l.target = UInt32.ofNat t := by
  constructor
  · intro h
    rw [addressLine?, Option.or_eq_some_iff] at h
    rcases h with hbranch | ⟨_, hequate⟩
    · exact namesAddress_of_branchLine? hbranch
    · exact namesAddress_of_equateLine? hequate
  · rintro ⟨t, hnamed, ht, htarget⟩
    rw [hnamed.addressLine?_eq ht, ← htarget]

/-- What stands before an address leaves the address, with its mark or without. -/
theorem NamesAddress.exists_number {line before : List Char} {t : Nat} (h : NamesAddress line before t) :
    ∃ mark number, (mark = [] ∨ mark = ['#']) ∧ line = before ++ (mark ++ number) ∧ NamesNumber number t := by
  cases h with
  | @branch indent word gap register mark number _ _ _ _ _ _ hmark hnumber =>
    exact ⟨mark, number, hmark, List.append_assoc .., hnumber⟩
  | @equate indent label gap word gap' number _ _ _ _ _ _ _ _ hnumber =>
    exact ⟨[], number, .inl rfl, rfl, hnumber⟩

/-- **A line names one address**, as far as it is read. -/
theorem NamesAddress.unique {line before before' : List Char} {t t' : Nat} (h : NamesAddress line before t)
    (ht : t < 0x8000000000000000) (h' : NamesAddress line before' t') (ht' : t' < 0x8000000000000000) :
    before = before' ∧ t = t' := by
  have hread := h.addressLine?_eq ht
  rw [h'.addressLine?_eq ht', Option.some.injEq, AddressLine.mk.injEq] at hread
  obtain ⟨rfl, _⟩ := hread
  obtain ⟨mark, number, hmark, hline, hnumber⟩ := h.exists_number
  obtain ⟨mark', number', hmark', hline', hnumber'⟩ := h'.exists_number
  have hsame : mark ++ number = mark' ++ number' := List.append_cancel_left (hline.symm.trans hline')
  have hequal : number = number' := by
    rw [← (hnumber.marked hmark).2.2, hsame, (hnumber'.marked hmark').2.2]
  subst hequal
  exact ⟨rfl, hnumber.unique hnumber'⟩

end BinaryPatching
