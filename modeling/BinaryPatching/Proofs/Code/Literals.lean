import BinaryPatching.Code.Literals
import BinaryPatching.Proofs.Image.Mapping

/-!
# `BinaryPatching.Proofs.Code.Literals` — which words are shown in place of an operand

An operand relative to the program counter is replaced by the word it loads. Here the operand is described by the text
around it, and the words that are taken to lie in a section by their addresses.

## Contents
- `IsReference`, `FirstReference`, `counterReference?_eq_some_iff`: the operand, as a part of a text.
- `Section.HoldsWord`, `Section.AcceptsWord`: words that lie in a section, and those that are taken to.
- `LoadsWord`, `withLiteral?_eq_some_iff`: when an instruction shows the word it loads.
-/

namespace BinaryPatching

open Text Thumb

/-! ## The operand -/

/-- **An operand relative to the program counter**, as a part of a text: the mark, a displacement that is a literal,
    and a closing bracket. -/
def IsReference (text : List Char) (r : CounterReference) : Prop :=
  text = r.before ++ (referenceMark ++ (r.displacement ++ ']' :: r.after)) ∧ isLiteral r.displacement = true

/-- **The first such operand** of a text. -/
def FirstReference (text : List Char) (r : CounterReference) : Prop :=
  IsReference text r ∧ ∀ r', IsReference text r' → r.before.length ≤ r'.before.length

/-- A literal is an optional sign and its digits, those of base sixteen behind their mark. -/
theorem exists_magnitude (cs : List Char) :
    ∃ magnitude, (cs = magnitude ∨ cs = '-' :: magnitude) ∧
      isLiteral cs = match afterHexMark magnitude with
        | some digits => !digits.isEmpty && digits.all (isDigitOf 16)
        | none => !magnitude.isEmpty && magnitude.all (isDigitOf 10) := by
  by_cases hsign : ∃ rest, cs = '-' :: rest
  · obtain ⟨rest, rfl⟩ := hsign
    refine ⟨rest, .inr rfl, ?_⟩
    simp only [isLiteral]
    cases afterHexMark rest <;> rfl
  · have hunsigned : ∀ rest, cs = '-' :: rest → False := fun rest h => hsign ⟨rest, h⟩
    refine ⟨cs, .inl rfl, ?_⟩
    simp only [isLiteral]
    cases afterHexMark cs <;> rfl

/-- The characters of a literal: digits, a sign and the mark of hexadecimal digits. -/
theorem not_mem_of_isLiteral {c : Char} {cs : List Char} (hvalue : digitValue c = none) (hsign : c ≠ '-')
    (hsmall : c ≠ 'x') (hcapital : c ≠ 'X') (h : isLiteral cs = true) : c ∉ cs := by
  have hzero : c ≠ '0' := by
    rintro rfl
    revert hvalue
    decide
  have hall {base : Nat} {ds : List Char} (hds : ds.all (isDigitOf base) = true) : c ∉ ds := fun hc => by
    have hdigit := List.all_eq_true.1 hds c hc
    rw [isDigitOf, hvalue] at hdigit
    cases hdigit
  obtain ⟨magnitude, hcs, heq⟩ := exists_magnitude cs
  rw [heq] at h
  have hmagnitude : c ∉ magnitude := by
    split at h
    · rename_i digits hmark
      have hdigits := hall (Bool.and_eq_true_iff.1 h).2
      unfold afterHexMark at hmark
      split at hmark
      · cases hmark
        simp [hzero, hsmall, hdigits]
      · cases hmark
        simp [hzero, hcapital, hdigits]
      · cases hmark
    · exact hall (Bool.and_eq_true_iff.1 h).2
  rcases hcs with rfl | rfl
  · exact hmagnitude
  · exact List.not_mem_cons_of_ne_of_not_mem hsign hmagnitude

/-- A literal ends before a closing bracket. -/
theorem takeWhile_literal {d : List Char} (after : List Char) (h : isLiteral d = true) :
    (d ++ ']' :: after).takeWhile (· != ']') = d := by
  have hnot : ']' ∉ d := not_mem_of_isLiteral (by decide) (by decide) (by decide) (by decide) h
  have hall : ∀ c ∈ d, (c != ']') = true := fun c hc => bne_iff_ne.2 fun heq => hnot (heq ▸ hc)
  rw [List.takeWhile_append_of_pos hall, List.takeWhile_cons_of_neg (by decide), List.append_nil]

/-- The test of a single place of a text succeeds just where an operand begins. -/
theorem reference_here_iff (cs : List Char) :
    (referenceMark.isPrefixOf cs && (cs.drop referenceMark.length).contains ']'
      && isLiteral ((cs.drop referenceMark.length).takeWhile (· != ']'))) = true ↔
      ∃ d after, IsReference cs ⟨[], d, after⟩ := by
  constructor
  · intro h
    simp only [Bool.and_eq_true, List.isPrefixOf_iff_prefix] at h
    obtain ⟨⟨⟨behind, rfl⟩, hclosed⟩, hliteral⟩ := h
    rw [List.drop_left] at hclosed hliteral
    have hmem : ']' ∈ behind := List.contains_iff_mem.1 hclosed
    refine ⟨behind.takeWhile (· != ']'), (behind.dropWhile (· != ']')).tail, ?_, hliteral⟩
    -- The rest after the displacement begins with the bracket.
    have hrest : behind.dropWhile (· != ']') = ']' :: (behind.dropWhile (· != ']')).tail := by
      cases hd : behind.dropWhile (· != ']') with
      | nil =>
        have hall := List.takeWhile_append_dropWhile (p := (· != ']')) (l := behind)
        rw [hd, List.append_nil] at hall
        rw [← hall] at hmem
        exact absurd (List.all_eq_true.1 List.all_takeWhile _ hmem) (by decide)
      | cons c rest =>
        have hhead := List.head?_dropWhile_not (· != ']') behind
        rw [hd] at hhead
        have hc : c = ']' := by simpa using hhead
        rw [hc, List.tail_cons]
    show _ = [] ++ (referenceMark ++ (_ ++ ']' :: _))
    rw [← hrest, List.takeWhile_append_dropWhile, List.nil_append]
  · rintro ⟨d, after, rfl, hliteral⟩
    have hd : isLiteral d = true := hliteral
    rw [List.nil_append, List.drop_left, takeWhile_literal _ hd, hd, Bool.and_true, Bool.and_eq_true]
    exact ⟨List.isPrefixOf_iff_prefix.2 ⟨_, rfl⟩, List.contains_iff_mem.2 (by simp)⟩

/-- An operand that begins at once is determined by the text. -/
theorem IsReference.eq_of_nil {cs : List Char} {d d' after after' : List Char} (h : IsReference cs ⟨[], d, after⟩)
    (h' : IsReference cs ⟨[], d', after'⟩) : d = d' ∧ after = after' := by
  have heq : d ++ ']' :: after = d' ++ ']' :: after' := by
    have htext := h.1.symm.trans h'.1
    exact List.append_cancel_left (List.append_cancel_left htext)
  have hd : d = d' := by
    have htake := takeWhile_literal after (show isLiteral d = true from h.2)
    rw [heq] at htake
    exact htake.symm.trans (takeWhile_literal _ (show isLiteral d' = true from h'.2))
  subst hd
  exact ⟨rfl, (List.cons.inj (List.append_cancel_left heq)).2⟩

/-- An operand of a longer text either begins at once or lies in the rest. -/
theorem isReference_cons {c : Char} {cs : List Char} {r : CounterReference} (h : IsReference (c :: cs) r)
    (hhere : ¬∃ d after, IsReference (c :: cs) ⟨[], d, after⟩) :
    ∃ before, r.before = c :: before ∧ IsReference cs ⟨before, r.displacement, r.after⟩ := by
  obtain ⟨before, d, after⟩ := r
  cases before with
  | nil => exact absurd ⟨d, after, h⟩ hhere
  | cons b before =>
    obtain ⟨htext, hliteral⟩ := h
    obtain ⟨rfl, hrest⟩ := List.cons.inj htext
    exact ⟨before, rfl, hrest, hliteral⟩

theorem IsReference.cons {cs : List Char} {r : CounterReference} (c : Char) (h : IsReference cs r) :
    IsReference (c :: cs) ⟨c :: r.before, r.displacement, r.after⟩ :=
  ⟨congrArg (c :: ·) h.1, h.2⟩

/-- The search from a place of a text on finds the first operand of the rest. -/
theorem counterReferenceFrom_eq_some_iff {read cs : List Char} {r : CounterReference} :
    counterReferenceFrom read cs = some r ↔
      ∃ before, r.before = read ++ before ∧ FirstReference cs ⟨before, r.displacement, r.after⟩ := by
  induction cs generalizing read with
  | nil =>
    refine ⟨fun h => (by cases h), ?_⟩
    rintro ⟨before, _, ⟨htext, _⟩, _⟩
    exact absurd htext (by simp [referenceMark])
  | cons c rest ih =>
    rw [counterReferenceFrom]
    -- Either the first operand begins at this character, or it is the first of the rest.
    by_cases hhere : ∃ d after, IsReference (c :: rest) ⟨[], d, after⟩
    · rw [if_pos ((reference_here_iff (c :: rest)).2 hhere)]
      obtain ⟨d, after, hd⟩ := hhere
      have hdrop : (c :: rest).drop referenceMark.length = d ++ ']' :: after := by
        rw [hd.1]
        exact List.drop_left
      rw [hdrop, takeWhile_literal _ hd.2, ← List.drop_drop, List.drop_left, List.drop_one, List.tail_cons,
        Option.some.injEq]
      constructor
      · rintro rfl
        exact ⟨[], (List.append_nil _).symm, hd, fun _ _ => Nat.zero_le _⟩
      · rintro ⟨before, hbefore, hfirst⟩
        have hnil : before = [] := List.eq_nil_of_length_eq_zero (Nat.le_zero.1 (hfirst.2 _ hd))
        subst hnil
        obtain ⟨rfl, rfl⟩ := hd.eq_of_nil hfirst.1
        rw [List.append_nil] at hbefore
        rw [← hbefore]
    · rw [if_neg fun h => hhere ((reference_here_iff (c :: rest)).1 h), ih]
      constructor
      · rintro ⟨before, hbefore, hfirst⟩
        refine ⟨c :: before, by rw [hbefore, List.append_assoc, List.singleton_append], hfirst.1.cons c, ?_⟩
        intro r' hr'
        obtain ⟨before', hbefore', hr'⟩ := isReference_cons hr' hhere
        have hle := hfirst.2 _ hr'
        rw [hbefore']
        exact Nat.succ_le_succ hle
      · rintro ⟨before, hbefore, hfirst⟩
        obtain ⟨before', rfl, hr⟩ := isReference_cons hfirst.1 hhere
        refine ⟨before', by rw [hbefore, List.append_assoc, List.singleton_append], hr, fun r' hr' => ?_⟩
        exact Nat.le_of_succ_le_succ (hfirst.2 _ (hr'.cons c))

/-- **The operand found** is the first of the text. -/
theorem counterReference?_eq_some_iff {operands : String} {r : CounterReference} :
    counterReference? operands = some r ↔ FirstReference operands.toList r := by
  rw [counterReference?, counterReferenceFrom_eq_some_iff]
  constructor
  · rintro ⟨before, hbefore, hfirst⟩
    rw [List.nil_append] at hbefore
    rw [← hbefore] at hfirst
    exact hfirst
  · intro hfirst
    exact ⟨r.before, rfl, hfirst⟩

/-! ## The word -/

namespace Section

/-- **A word in a section**: all its four bytes lie in the mapped part. -/
def HoldsWord (s : Section) (p : UInt32) : Prop := s.address.toNat ≤ p.toNat ∧ p.toNat + 4 ≤ s.stop.toNat

/-- **A word that is taken to lie in a section.** Only its first and its last byte are looked at, so that a word
    which wraps around the last address counts as well when both are contained. -/
def AcceptsWord (s : Section) (p : UInt32) : Prop :=
  s.HoldsWord p ∨
    (0x100000000 ≤ p.toNat + 3 ∧ s.containsAddress p = true ∧ s.containsAddress (p + 3) = true)

/-- The two tests on a word accept it just when it is taken to lie in the section. -/
theorem acceptsWord_iff {s : Section} {p : UInt32} :
    (s.containsAddress p && s.containsAddress (p + 3)) = true ↔ s.AcceptsWord p := by
  have hlt := p.toNat_lt
  have hlast : (p + 3).toNat = (p.toNat + 3) % 0x100000000 := UInt32.toNat_add _ _
  have hcontains (a : UInt32) :
      s.containsAddress a = true ↔ s.address.toNat ≤ a.toNat ∧ a.toNat < s.stop.toNat := by
    simp only [containsAddress, Bool.and_eq_true, decide_eq_true_eq, UInt32.le_iff_toNat_le,
      UInt32.lt_iff_toNat_lt]
  have hstop := s.stop.toNat_lt
  rw [Bool.and_eq_true, AcceptsWord, HoldsWord, hcontains, hcontains, hlast]
  -- Without a wrap the four bytes lie between the two that are tested.
  by_cases hwrap : 0x100000000 ≤ p.toNat + 3
  · constructor
    · intro h
      exact .inr ⟨hwrap, h⟩
    · rintro (h | ⟨_, h⟩)
      · omega
      · exact h
  · rw [Nat.mod_eq_of_lt (by omega)]
    omega

end Section

/-- **A word loaded by an instruction.** The first operand relative to the program counter names the address of a
    word that can be read and of which `lies` holds. -/
structure LoadsWord (image : Image) (lies : UInt32 → Prop) (i : Instruction) (r : CounterReference)
    (word : UInt32) : Prop where
  /-- The operand. -/
  reference : FirstReference i.operands.toList r
  /-- The word at the address that the operand names. -/
  located : ∃ n, parseNumber (String.ofList r.displacement) = some n ∧ lies (literalAddress i.address n) ∧
    image.readWord? (literalAddress i.address n) = some word

/-- The instruction with a word in place of an operand. -/
def showing (i : Instruction) (r : CounterReference) (word : UInt32) : Instruction :=
  { i with operands := String.ofList (r.before ++ ['#', '0', 'x'] ++ Nat.toDigits 16 word.toNat ++ r.after) }

/-- **The literal of an instruction** is named by its first operand relative to the program counter, and is taken to lie
    in the section. -/
theorem literal?_eq_some_iff {s : Section} {i : Instruction} {r : CounterReference} {p : UInt32} :
    literal? s i = some (r, p) ↔ FirstReference i.operands.toList r ∧
      ∃ n, parseNumber (String.ofList r.displacement) = some n ∧ p = literalAddress i.address n ∧ s.AcceptsWord p := by
  unfold literal?
  constructor
  · intro h
    split at h
    · cases h
    · rename_i r hr
      split at h
      · cases h
      · rename_i n hn
        dsimp only at h
        split at h
        · rename_i haccept
          cases h
          exact ⟨counterReference?_eq_some_iff.1 hr, n, hn, rfl, Section.acceptsWord_iff.1 haccept⟩
        · cases h
  · rintro ⟨hr, n, hn, rfl, haccept⟩
    rw [counterReference?_eq_some_iff.2 hr]
    dsimp only
    rw [hn]
    dsimp only
    rw [if_pos (Section.acceptsWord_iff.2 haccept)]

/-- **The literals shown** are the words that are taken to lie in the section and can be read. -/
theorem withLiteral?_eq_some_iff {image : Image} {s : Section} {i j : Instruction} :
    withLiteral? image s i = some j ↔ ∃ r word, LoadsWord image s.AcceptsWord i r word ∧ j = showing i r word := by
  unfold withLiteral?
  constructor
  · intro h
    split at h
    · cases h
    · rename_i r p hliteral
      obtain ⟨hr, n, hn, rfl, haccept⟩ := literal?_eq_some_iff.1 hliteral
      obtain ⟨word, hword, rfl⟩ := Option.map_eq_some_iff.1 h
      exact ⟨r, word, ⟨hr, n, hn, haccept, hword⟩, rfl⟩
  · rintro ⟨r, word, ⟨hr, n, hn, haccept, hword⟩, rfl⟩
    rw [literal?_eq_some_iff.2 ⟨hr, n, hn, rfl, haccept⟩]
    dsimp only
    rw [hword]
    rfl

theorem withLiteral?_eq_none_iff {image : Image} {s : Section} {i : Instruction} :
    withLiteral? image s i = none ↔ ¬∃ r word, LoadsWord image s.AcceptsWord i r word := by
  constructor
  · rintro hnone ⟨r, word, hload⟩
    have hsome := withLiteral?_eq_some_iff.2 ⟨r, word, hload, rfl⟩
    rw [hnone] at hsome
    cases hsome
  · intro hload
    cases h : withLiteral? image s i with
    | none => rfl
    | some j =>
      obtain ⟨r, word, hr, _⟩ := withLiteral?_eq_some_iff.1 h
      exact absurd ⟨r, word, hr⟩ hload

/-- Showing a literal keeps all of an instruction but its operands. -/
theorem withLiteral?_frame {image : Image} {s : Section} {i j : Instruction} (h : withLiteral? image s i = some j) :
    j.address = i.address ∧ j.bytes = i.bytes ∧ j.mnemonic = i.mnemonic := by
  obtain ⟨r, word, _, rfl⟩ := withLiteral?_eq_some_iff.1 h
  exact ⟨rfl, rfl, rfl⟩

end BinaryPatching
