import BinaryPatching.Proofs.Text.Hexadecimal
import Mathlib.Data.List.Forall2
import Mathlib.Data.Nat.Digits.Defs

/-!
# `BinaryPatching.Proofs.Text.Numerals` — numbers and how they may be written

A number of a script is a minus sign or none, and behind it decimal digits, or hexadecimal ones behind their mark. What
stands behind the minus sign is read by a reader that takes a sign of its own right before the digits. So texts with a
second sign are numbers as well, and two minus signs before 2^63 make the only one whose negation does not fit 64 bits.

## Contents
- `IsDigit`, `Denotes`: digits and what they denote.
- `readDigits_eq_some_iff`, `readNumeral_eq_some_iff`: digits that are read.
- `Sign`, `readSigned_eq`, `readUnsigned_eq_some_iff`, `map_readUnsigned_eq_some_iff`: a sign right before the digits.
- `IsMagnitude`, `readMagnitude_eq_some_iff`: what stands behind the minus sign.
- `IsWritten`, `parseNumber_eq_some_iff`: numbers.
- `IsNumber`, `parseNumber_exact`: the numbers without a second sign.
-/

namespace BinaryPatching.Text

/-! ## Digits and what they denote -/

/-- **A digit** of a base up to sixteen, and its value: the decimal digits, then the letters from `a` on, small or
capital. -/
def IsDigit (base : Nat) (c : Char) (d : Nat) : Prop :=
  d < base ∧ (c = d.digitChar ∨ c = d.digitChar.toUpper)

instance (base : Nat) (c : Char) (d : Nat) : Decidable (IsDigit base c d) := inferInstanceAs (Decidable (_ ∧ _))

/-- **What digits denote.** There is at least one, and the last one counts least. -/
def Denotes (base : Nat) (cs : List Char) (n : Nat) : Prop :=
  cs ≠ [] ∧ ∃ ds, List.Forall₂ (IsDigit base) cs ds ∧ n = Nat.ofDigits base ds.reverse

/-- **The digits that are read** are those of base sixteen. -/
theorem digitValue_eq_some_iff {c : Char} {d : Nat} : digitValue c = some d ↔ IsDigit 16 c d := by
  constructor
  · intro h
    have hall : ∀ n < 0x67, (digitValue (Char.ofNat n)).all (fun d => decide (IsDigit 16 (Char.ofNat n) d)) = true := by
      decide
    have hc := hall c.toNat (Nat.lt_succ_of_le (bounds_of_digitValue h).2)
    rw [Char.ofNat_toNat, h] at hc
    exact of_decide_eq_true hc
  · rintro ⟨hd, rfl | rfl⟩
    · exact digitValue_digitChar d hd
    · exact digitValue_toUpper_digitChar d hd

section Digits

variable {base : Nat}

theorem isDigit_iff (hbase : base ≤ 16) {c : Char} {d : Nat} : IsDigit base c d ↔ digitValue c = some d ∧ d < base := by
  rw [digitValue_eq_some_iff]
  exact ⟨fun h => ⟨⟨by have := h.1; omega, h.2⟩, h.1⟩, fun h => ⟨h.2, h.1.2⟩⟩

/-- **Digits are read** with what they denote, behind a number that has been read already. -/
theorem readDigits_eq_some_iff (hbase : base ≤ 16) {value n : Nat} {cs : List Char} :
    readDigits base value cs = some n ↔
      ∃ ds, List.Forall₂ (IsDigit base) cs ds ∧ n = value * base ^ cs.length + Nat.ofDigits base ds.reverse := by
  induction cs generalizing value with
  | nil => simp [readDigits, eq_comm]
  | cons c cs ih =>
    -- The first digit counts as often as the digits behind it have places.
    have hplaces (d : Nat) (ds : List Nat) (hlength : cs.length = ds.length) :
        (base * value + d) * base ^ cs.length + Nat.ofDigits base ds.reverse
          = value * base ^ (c :: cs).length + Nat.ofDigits base (d :: ds).reverse := by
      rw [List.reverse_cons, Nat.ofDigits_append, Nat.ofDigits_singleton, List.length_reverse, ← hlength,
        List.length_cons, Nat.pow_succ]
      ring
    rw [readDigits]
    constructor
    · intro h
      split at h
      · rename_i d hd
        split at h
        · rename_i hlt
          obtain ⟨ds, hds, hn⟩ := ih.1 h
          exact ⟨d :: ds, .cons ((isDigit_iff hbase).2 ⟨hd, hlt⟩) hds, hn.trans (hplaces d ds hds.length_eq)⟩
        · cases h
      · cases h
    · rintro ⟨ds, hds, hn⟩
      cases hds with
      | @cons _ d _ ds hd hds =>
        obtain ⟨hvalue, hlt⟩ := (isDigit_iff hbase).1 hd
        rw [hvalue]
        dsimp only
        rw [if_pos hlt]
        exact ih.2 ⟨ds, hds, hn.trans (hplaces d ds hds.length_eq).symm⟩

/-- **A numeral is read** if it denotes a number. -/
theorem readNumeral_eq_some_iff (hbase : base ≤ 16) {n : Nat} {cs : List Char} :
    readNumeral base cs = some n ↔ Denotes base cs n := by
  cases cs with
  | nil => simp [Denotes]
  | cons c cs =>
    rw [readNumeral, List.isEmpty_cons, if_neg Bool.false_ne_true, readDigits_eq_some_iff hbase]
    simp [Denotes]

/-- A numeral begins with a digit. -/
theorem Denotes.exists_head {cs : List Char} {n : Nat} (h : Denotes base cs n) :
    ∃ c rest d, cs = c :: rest ∧ IsDigit base c d := by
  obtain ⟨hsome, ds, hds, _⟩ := h
  cases hds with
  | nil => exact absurd rfl hsome
  | @cons c d rest _ hd _ => exact ⟨c, rest, d, rfl, hd⟩

/-- What is none of the digits in either case is no digit. -/
theorem not_isDigit {x : Char} (hx : ∀ d < base, x ≠ d.digitChar ∧ x ≠ d.digitChar.toUpper) {d : Nat} :
    ¬IsDigit base x d := by
  rintro ⟨hlt, hsmall | hcapital⟩
  · exact (hx d hlt).1 hsmall
  · exact (hx d hlt).2 hcapital

/-- A digit is neither a sign nor the letter of a mark, unless that letter is a digit. -/
theorem IsDigit.ne {c x : Char} {d : Nat} (h : IsDigit base c d)
    (hx : ∀ d < base, x ≠ d.digitChar ∧ x ≠ d.digitChar.toUpper) : c ≠ x := by
  rintro rfl
  exact not_isDigit hx h

/-- A numeral begins with no sign. -/
theorem Denotes.head_ne_sign (hbase : base ≤ 16) {c : Char} {cs : List Char} {n : Nat} (h : Denotes base (c :: cs) n) :
    c ≠ '-' ∧ c ≠ '+' := by
  obtain ⟨_, _, d, hcs, hd⟩ := h.exists_head
  obtain ⟨rfl, -⟩ := List.cons.inj hcs
  have hsixteen : IsDigit 16 c d := ⟨by have := hd.1; omega, hd.2⟩
  exact ⟨hsixteen.ne (by decide), hsixteen.ne (by decide)⟩

end Digits

/-! ## Signs -/

/-- The signs that may stand right before digits. -/
inductive Sign where
  /-- There is none. -/
  | absent
  /-- A plus sign. -/
  | plus
  /-- A minus sign. -/
  | minus
deriving DecidableEq

namespace Sign

/-- A sign as it is written. -/
def written : Sign → List Char
  | absent => []
  | plus => ['+']
  | minus => ['-']

/-- The number of a sign and what the digits behind it denote. -/
def number : Sign → Nat → Int
  | minus, n => -n
  | _, n => n

end Sign

/-- **A number that fits 64 bits** in two's complement. -/
def FitsWord (v : Int) : Prop := -0x8000000000000000 ≤ v ∧ v < 0x8000000000000000

instance (v : Int) : Decidable (FitsWord v) := inferInstanceAs (Decidable (_ ∧ _))

theorem fitsWord_natCast (n : Nat) : FitsWord (n : Int) ↔ n < 0x8000000000000000 := by
  unfold FitsWord
  omega

theorem fitsWord_neg (n : Nat) : FitsWord (-(n : Int)) ↔ n ≤ 0x8000000000000000 := by
  unfold FitsWord
  omega

/-- A text by the sign at its front. -/
def splitSign (cs : List Char) : Sign × List Char :=
  match cs with
  | '-' :: rest => (.minus, rest)
  | '+' :: rest => (.plus, rest)
  | _ => (.absent, cs)

theorem written_splitSign (cs : List Char) : (splitSign cs).1.written ++ (splitSign cs).2 = cs := by
  unfold splitSign
  split <;> rfl

/-- A sign is found before digits. -/
theorem splitSign_written {base : Nat} (hbase : base ≤ 16) (sign : Sign) {digits : List Char} {n : Nat}
    (h : Denotes base digits n) : splitSign (sign.written ++ digits) = (sign, digits) := by
  cases sign with
  | plus => rfl
  | minus => rfl
  | absent =>
    obtain ⟨c, rest, d, rfl, -⟩ := h.exists_head
    obtain ⟨hminus, hplus⟩ := h.head_ne_sign hbase
    show splitSign (c :: rest) = (.absent, c :: rest)
    unfold splitSign
    split
    · rename_i heq
      exact absurd (List.cons.inj heq).1 hminus
    · rename_i heq
      exact absurd (List.cons.inj heq).1 hplus
    · rfl

/-- **A signed number** is read by its sign and its digits, if it fits 64 bits. -/
theorem readSigned_eq (base : Nat) (cs : List Char) :
    readSigned base cs = ((readNumeral base (splitSign cs).2).map (splitSign cs).1.number).filter (FitsWord ·) := by
  unfold splitSign
  split
  · rename_i rest
    rw [readSigned]
    cases readNumeral base rest with
    | none => rfl
    | some n => by_cases hn : n ≤ 0x8000000000000000 <;> simp [Option.filter, Sign.number, fitsWord_neg, hn]
  · rename_i rest
    rw [readSigned]
    cases readNumeral base rest with
    | none => rfl
    | some n => by_cases hn : n < 0x8000000000000000 <;> simp [Option.filter, Sign.number, fitsWord_natCast, hn]
  · rename_i hminus hplus
    rw [readSigned]
    · cases readNumeral base cs with
      | none => rfl
      | some n => by_cases hn : n < 0x8000000000000000 <;> simp [Option.filter, Sign.number, fitsWord_natCast, hn]
    · exact hminus
    · exact hplus

/-- **An unsigned number** is read from its digits, or from those behind a plus sign. -/
theorem readUnsigned_eq_some_iff {base : Nat} (hbase : base ≤ 16) {limit n : Nat} {cs : List Char} :
    readUnsigned base limit cs = some n ↔
      (Denotes base cs n ∨ ∃ digits, cs = '+' :: digits ∧ Denotes base digits n) ∧ n < limit := by
  unfold readUnsigned
  split
  · rename_i rest
    have hsign : ¬Denotes base ('+' :: rest) n := fun h => (h.head_ne_sign hbase).2 rfl
    rw [Option.filter_eq_some_iff, readNumeral_eq_some_iff hbase, decide_eq_true_eq]
    simp [hsign]
  · rename_i hplus
    have hsign : ¬∃ digits, cs = '+' :: digits ∧ Denotes base digits n := fun ⟨digits, hcs, _⟩ => hplus digits hcs
    rw [Option.filter_eq_some_iff, readNumeral_eq_some_iff hbase, decide_eq_true_eq, or_iff_left hsign]

/-- **A word** of any size is read from its digits, or from those behind a plus sign. -/
theorem map_readUnsigned_eq_some_iff {base : Nat} (hbase : base ≤ 16) {α : Type} {limit : Nat} {ofNat : Nat → α}
    {toNat : α → Nat} (htoNat : ∀ n < limit, toNat (ofNat n) = n) (hofNat : ∀ word, ofNat (toNat word) = word)
    (hlimit : ∀ word, toNat word < limit) {cs : List Char} {word : α} :
    (readUnsigned base limit cs).map ofNat = some word ↔
      Denotes base cs (toNat word) ∨ ∃ digits, cs = '+' :: digits ∧ Denotes base digits (toNat word) := by
  rw [Option.map_eq_some_iff]
  constructor
  · rintro ⟨n, hn, rfl⟩
    obtain ⟨hdigits, hlt⟩ := (readUnsigned_eq_some_iff hbase).1 hn
    rwa [htoNat n hlt]
  · intro hdigits
    exact ⟨_, (readUnsigned_eq_some_iff hbase).2 ⟨hdigits, hlimit word⟩, hofNat word⟩

/-! ## What stands behind the minus sign -/

/-- **What may stand behind the minus sign of a number**, with the sign right before its digits and what these denote. -/
inductive IsMagnitude (sign : Sign) : List Char → Nat → Prop where
  /-- Decimal digits. -/
  | decimal {digits : List Char} {n : Nat} (hdigits : Denotes 10 digits n) :
      IsMagnitude sign (sign.written ++ digits) n
  /-- Hexadecimal digits behind their mark, with the letter of either case. -/
  | hexadecimal {mark : Char} {digits : List Char} {n : Nat} (hmark : mark = 'x' ∨ mark = 'X')
      (hdigits : Denotes 16 digits n) : IsMagnitude sign ('0' :: mark :: (sign.written ++ digits)) n

/-- The base of a number, the sign right before its digits, and the digits. -/
def splitMagnitude (cs : List Char) : Nat × Sign × List Char :=
  match afterHexMark cs with
  | some rest => (16, splitSign rest)
  | none => (10, splitSign cs)

theorem base_splitMagnitude_le (cs : List Char) : (splitMagnitude cs).1 ≤ 16 := by
  unfold splitMagnitude
  split
  · exact Nat.le_refl 16
  · show 10 ≤ 16
    omega

/-- A decimal number has no mark: the letter of a mark is no decimal digit, and no sign is a zero. -/
theorem afterHexMark_of_decimal (sign : Sign) {digits : List Char} {n : Nat} (h : Denotes 10 digits n) :
    afterHexMark (sign.written ++ digits) = none := by
  rw [Option.eq_none_iff_forall_ne_some]
  intro rest hrest
  obtain ⟨mark, hmark, hcs⟩ := afterHexMark_eq_some_iff.1 hrest
  cases sign with
  | plus => exact absurd (List.cons.inj hcs).1 (by decide)
  | minus => exact absurd (List.cons.inj hcs).1 (by decide)
  | absent =>
    obtain rfl : digits = '0' :: mark :: rest := hcs
    obtain ⟨-, ds, hds, -⟩ := h
    obtain _ | ⟨-, _ | ⟨hdigit, -⟩⟩ := hds
    have hx : mark ≠ 'x' := hdigit.ne (by decide)
    have hcapital : mark ≠ 'X' := hdigit.ne (by decide)
    exact hmark.elim hx hcapital

/-- **What may stand behind a minus sign**, by its parts. -/
theorem isMagnitude_iff {sign : Sign} {cs : List Char} {n : Nat} :
    IsMagnitude sign cs n ↔
      (splitMagnitude cs).2.1 = sign ∧ Denotes (splitMagnitude cs).1 (splitMagnitude cs).2.2 n := by
  constructor
  · rintro (⟨hdigits⟩ | ⟨hmark, hdigits⟩)
    · rename_i digits
      have hsplit := splitSign_written (by omega) sign hdigits
      have hafter := afterHexMark_of_decimal sign hdigits
      simp only [splitMagnitude, hafter, hsplit]
      exact ⟨trivial, hdigits⟩
    · rename_i mark digits
      have hsplit := splitSign_written (Nat.le_refl 16) sign hdigits
      have hafter : afterHexMark ('0' :: mark :: (sign.written ++ digits)) = some (sign.written ++ digits) :=
        afterHexMark_eq_some_iff.2 ⟨mark, hmark, rfl⟩
      simp only [splitMagnitude, hafter, hsplit]
      exact ⟨trivial, hdigits⟩
  · rintro ⟨rfl, hdigits⟩
    unfold splitMagnitude at hdigits ⊢
    cases hafter : afterHexMark cs with
    | none =>
      rw [hafter] at hdigits
      have h : IsMagnitude (splitSign cs).1 ((splitSign cs).1.written ++ (splitSign cs).2) n := .decimal hdigits
      rwa [written_splitSign] at h
    | some rest =>
      rw [hafter] at hdigits
      obtain ⟨mark, hmark, rfl⟩ := afterHexMark_eq_some_iff.1 hafter
      have h : IsMagnitude (splitSign rest).1 ('0' :: mark :: ((splitSign rest).1.written ++ (splitSign rest).2)) n :=
        .hexadecimal hmark hdigits
      rwa [written_splitSign] at h

/-- The number that stands behind a minus sign, or without one. -/
def readMagnitude (cs : List Char) : Option Int :=
  match afterHexMark cs with
  | some rest => readSigned 16 rest
  | none => readSigned 10 cs

/-- **What is read** behind a minus sign, or without one. -/
theorem readMagnitude_eq_some_iff {cs : List Char} {v : Int} :
    readMagnitude cs = some v ↔ ∃ sign n, IsMagnitude sign cs n ∧ FitsWord (sign.number n) ∧ v = sign.number n := by
  have hread : readMagnitude cs = ((readNumeral (splitMagnitude cs).1 (splitMagnitude cs).2.2).map
      (splitMagnitude cs).2.1.number).filter (FitsWord ·) := by
    unfold readMagnitude splitMagnitude
    split
    · exact readSigned_eq 16 _
    · exact readSigned_eq 10 cs
  rw [hread, Option.filter_eq_some_iff, Option.map_eq_some_iff, decide_eq_true_eq]
  constructor
  · rintro ⟨⟨n, hn, rfl⟩, hfits⟩
    exact ⟨_, n, isMagnitude_iff.2 ⟨rfl, (readNumeral_eq_some_iff (base_splitMagnitude_le cs)).1 hn⟩, hfits, rfl⟩
  · rintro ⟨sign, n, hmagnitude, hfits, rfl⟩
    obtain ⟨rfl, hdigits⟩ := isMagnitude_iff.1 hmagnitude
    exact ⟨⟨n, (readNumeral_eq_some_iff (base_splitMagnitude_le cs)).2 hdigits, rfl⟩, hfits⟩

/-! ## Numbers -/

/-- **A number as it is written**: whether a minus sign is in front, the sign right before the digits, and what the digits
denote. A minus sign that is the first character is the one in front. -/
inductive IsWritten : List Char → Bool → Sign → Nat → Prop where
  /-- With a minus sign in front. -/
  | negated {magnitude : List Char} {sign : Sign} {n : Nat} (hmagnitude : IsMagnitude sign magnitude n) :
      IsWritten ('-' :: magnitude) true sign n
  /-- Without one. -/
  | plain {magnitude : List Char} {sign : Sign} {n : Nat} (hmagnitude : IsMagnitude sign magnitude n)
      (hfirst : magnitude.head? ≠ some '-') : IsWritten magnitude false sign n

theorem Denotes.unique {base : Nat} (hbase : base ≤ 16) {cs : List Char} {n n' : Nat} (h : Denotes base cs n)
    (h' : Denotes base cs n') : n = n' := by
  rw [← readNumeral_eq_some_iff hbase] at h h'
  rw [h] at h'
  exact Option.some.inj h'

theorem IsMagnitude.unique {sign sign' : Sign} {cs : List Char} {n n' : Nat} (h : IsMagnitude sign cs n)
    (h' : IsMagnitude sign' cs n') : sign = sign' ∧ n = n' := by
  obtain ⟨rfl, hdigits⟩ := isMagnitude_iff.1 h
  obtain ⟨rfl, hdigits'⟩ := isMagnitude_iff.1 h'
  exact ⟨rfl, hdigits.unique (base_splitMagnitude_le cs) hdigits'⟩

/-- **A text is one number**, written in one way. -/
theorem IsWritten.unique {cs : List Char} {negated negated' : Bool} {sign sign' : Sign} {n n' : Nat}
    (h : IsWritten cs negated sign n) (h' : IsWritten cs negated' sign' n') : sign = sign' ∧ n = n' := by
  cases h with
  | negated hmagnitude =>
    cases h' with
    | negated hmagnitude' => exact hmagnitude.unique hmagnitude'
    | plain _ hfirst => exact absurd rfl hfirst
  | plain hmagnitude hfirst =>
    cases h' with
    | negated _ => exact absurd rfl hfirst
    | plain hmagnitude' _ => exact hmagnitude.unique hmagnitude'

section Reading

variable {text : String}

/-- A text with a minus sign in front is read behind it, and the number is negated. -/
theorem parseNumber_of_negated {magnitude : List Char} (h : trim text.toList = '-' :: magnitude) :
    parseNumber text = (readMagnitude magnitude).map fun v => wrapSigned (-v) := by
  unfold parseNumber readMagnitude
  rw [h]
  rfl

/-- Any other text is read as it is. -/
theorem parseNumber_of_plain (h : (trim text.toList).head? ≠ some '-') :
    parseNumber text = readMagnitude (trim text.toList) := by
  unfold parseNumber
  generalize trim text.toList = cs at h
  dsimp only
  split
  · exact absurd rfl h
  · show (readMagnitude cs).map (fun v => v) = readMagnitude cs
    exact Option.map_id'

/-- **The texts that are read**, with their numbers. -/
theorem parseNumber_eq_some_iff {v : Int} :
    parseNumber text = some v ↔ ∃ negated sign n, IsWritten (trim text.toList) negated sign n ∧
      FitsWord (sign.number n) ∧ v = if negated then wrapSigned (-sign.number n) else sign.number n := by
  by_cases hminus : (trim text.toList).head? = some '-'
  · obtain ⟨magnitude, hcs⟩ := List.head?_eq_some_iff.1 hminus
    rw [parseNumber_of_negated hcs, hcs, Option.map_eq_some_iff]
    constructor
    · rintro ⟨w, hw, rfl⟩
      obtain ⟨sign, n, hmagnitude, hfits, rfl⟩ := readMagnitude_eq_some_iff.1 hw
      exact ⟨true, sign, n, .negated hmagnitude, hfits, rfl⟩
    · rintro ⟨negated, sign, n, hwritten, hfits, rfl⟩
      cases hwritten with
      | negated hmagnitude => exact ⟨_, readMagnitude_eq_some_iff.2 ⟨sign, n, hmagnitude, hfits, rfl⟩, rfl⟩
      | plain _ hfirst => exact absurd rfl hfirst
  · rw [parseNumber_of_plain hminus, readMagnitude_eq_some_iff]
    constructor
    · rintro ⟨sign, n, hmagnitude, hfits, rfl⟩
      exact ⟨false, sign, n, .plain hmagnitude hminus, hfits, rfl⟩
    · rintro ⟨negated, sign, n, hwritten, hfits, rfl⟩
      generalize trim text.toList = cs at hminus hwritten
      cases hwritten with
      | negated _ => exact absurd rfl hminus
      | plain hmagnitude _ => exact ⟨sign, n, hmagnitude, hfits, rfl⟩

end Reading

/-! ## Numbers without a second sign -/

/-- **A number as it is to be written**: decimal digits, or hexadecimal ones behind their mark, below 2^63, and a minus
sign in front of them or none. -/
def IsNumber (cs : List Char) (v : Int) : Prop :=
  ∃ n < 0x8000000000000000, (IsMagnitude .absent cs n ∧ v = n) ∨
    ∃ magnitude, cs = '-' :: magnitude ∧ IsMagnitude .absent magnitude n ∧ v = -n

/-- Without a sign there is no minus sign either. -/
theorem IsMagnitude.head?_ne {cs : List Char} {n : Nat} (h : IsMagnitude .absent cs n) : cs.head? ≠ some '-' := by
  rintro hminus
  obtain ⟨rest, rfl⟩ := List.head?_eq_some_iff.1 hminus
  have hsign : (splitMagnitude ('-' :: rest)).2.1 = .minus := rfl
  rw [(isMagnitude_iff.1 h).1] at hsign
  cases hsign

/-- A number that fits 64 bits is not changed. -/
theorem wrapSigned_eq_self {v : Int} (h : FitsWord v) : wrapSigned v = v := by
  obtain ⟨hlow, hhigh⟩ := h
  exact Int.bmod_eq_of_le (by omega) (by omega)

/-- **Numbers without a second sign**, among those that are read. -/
theorem isNumber_iff {cs : List Char} {v : Int} :
    IsNumber cs v ↔ ∃ negated n, IsWritten cs negated .absent n ∧ FitsWord (Sign.number .absent n) ∧
      v = if negated then wrapSigned (-Sign.number .absent n) else Sign.number .absent n := by
  have hwrap {n : Nat} (hn : n < 0x8000000000000000) : wrapSigned (-(n : Int)) = -(n : Int) :=
    wrapSigned_eq_self ((fitsWord_neg n).2 (by omega))
  constructor
  · rintro ⟨n, hn, ⟨hmagnitude, rfl⟩ | ⟨magnitude, rfl, hmagnitude, rfl⟩⟩
    · exact ⟨false, n, .plain hmagnitude hmagnitude.head?_ne, (fitsWord_natCast n).2 hn, rfl⟩
    · exact ⟨true, n, .negated hmagnitude, (fitsWord_natCast n).2 hn, (hwrap hn).symm⟩
  · rintro ⟨negated, n, hwritten, hfits, rfl⟩
    have hn := (fitsWord_natCast n).1 hfits
    cases hwritten with
    | negated hmagnitude => exact ⟨n, hn, .inr ⟨_, rfl, hmagnitude, hwrap hn⟩⟩
    | plain hmagnitude _ => exact ⟨n, hn, .inl ⟨hmagnitude, rfl⟩⟩

/-- The number that is negated at last: the one behind the minus sign in front, if there is that sign. -/
def negatedNumber? (text : String) : Option Int :=
  match trim text.toList with
  | '-' :: magnitude => readMagnitude magnitude
  | _ => none

/-- It is what the number is made from, by a negation in 64 bits. -/
theorem parseNumber_of_negatedNumber? {text : String} {v : Int} (h : negatedNumber? text = some v) :
    parseNumber text = some (wrapSigned (-v)) := by
  unfold negatedNumber? at h
  split at h
  · rename_i magnitude hcs
    rw [parseNumber_of_negated hcs, h, Option.map_some]
  · cases h

/-- Only the least number has no negation. -/
theorem eq_of_not_fitsWord {sign : Sign} {n : Nat} (h : FitsWord (sign.number n)) (hneg : ¬FitsWord (-sign.number n)) :
    sign = .minus ∧ n = 0x8000000000000000 := by
  unfold FitsWord at h hneg
  cases sign with
  | minus =>
    have hnumber : Sign.number .minus n = -(n : Int) := rfl
    exact ⟨rfl, by omega⟩
  | absent =>
    have hnumber : Sign.number .absent n = (n : Int) := rfl
    omega
  | plus =>
    have hnumber : Sign.number .plus n = (n : Int) := rfl
    omega

/-- **The negation that does not fit 64 bits** is that of two minus signs before 2^63. -/
theorem exists_negatedNumber?_iff {text : String} :
    (∃ v, negatedNumber? text = some v ∧ ¬FitsWord (-v)) ↔
      IsWritten (trim text.toList) true .minus 0x8000000000000000 := by
  constructor
  · rintro ⟨v, hv, hfits⟩
    unfold negatedNumber? at hv
    split at hv
    · rename_i magnitude hcs
      obtain ⟨sign, n, hmagnitude, hword, rfl⟩ := readMagnitude_eq_some_iff.1 hv
      obtain ⟨rfl, rfl⟩ := eq_of_not_fitsWord hword hfits
      rw [hcs]
      exact .negated hmagnitude
    · cases hv
  · intro h
    generalize hcs : trim text.toList = cs at h
    cases h with
    | negated hmagnitude =>
      refine ⟨-0x8000000000000000, ?_, by decide⟩
      unfold negatedNumber?
      rw [hcs]
      exact readMagnitude_eq_some_iff.2 ⟨.minus, _, hmagnitude, by decide, rfl⟩

/-- **Which numbers are read.** The texts that are read are all those that are written as numbers and fit 64 bits, with a
second sign or without. They are just the numbers that are to be written, with the values of these, unless the text is
read with a sign right before its digits although that is not its first character. And the negation of the sign in front
does not fit 64 bits for one number only, which has two minus signs. -/
theorem parseNumber_exact (text : String) :
    (∀ v, parseNumber text = some v ↔ ∃ negated sign n, IsWritten (trim text.toList) negated sign n ∧
        FitsWord (sign.number n) ∧ v = if negated then wrapSigned (-sign.number n) else sign.number n) ∧
      ((∀ v, parseNumber text = some v ↔ IsNumber (trim text.toList) v) ↔
        ∀ negated sign n, IsWritten (trim text.toList) negated sign n → FitsWord (sign.number n) → sign = .absent) ∧
      (∀ v, negatedNumber? text = some v → parseNumber text = some (wrapSigned (-v))) ∧
      ((∃ v, negatedNumber? text = some v ∧ ¬FitsWord (-v)) ↔
        IsWritten (trim text.toList) true .minus 0x8000000000000000) := by
  refine ⟨fun v => parseNumber_eq_some_iff, ⟨?_, ?_⟩, fun v => parseNumber_of_negatedNumber?, exists_negatedNumber?_iff⟩
  · intro hall negated sign n hwritten hfits
    have hread := parseNumber_eq_some_iff.2 ⟨negated, sign, n, hwritten, hfits, rfl⟩
    obtain ⟨_, _, hplain, _, _⟩ := isNumber_iff.1 ((hall _).1 hread)
    exact (hwritten.unique hplain).1
  · intro hplain v
    rw [parseNumber_eq_some_iff, isNumber_iff]
    constructor
    · rintro ⟨negated, sign, n, hwritten, hfits, hv⟩
      obtain rfl := hplain negated sign n hwritten hfits
      exact ⟨negated, n, hwritten, hfits, hv⟩
    · rintro ⟨negated, n, hwritten, hfits, hv⟩
      exact ⟨negated, .absent, n, hwritten, hfits, hv⟩

/-- Two minus signs before a digit are read as none, though no number is to be written with them. Before 2^63 the sign in
front has no effect, since what it negates is the least number of 64 bits. -/
theorem parseNumber_doubleMinus :
    parseNumber "--5" = some 5 ∧ (∀ v, ¬IsNumber (trim "--5".toList) v) ∧
      negatedNumber? "--9223372036854775808" = some (-0x8000000000000000) ∧ ¬FitsWord (- -0x8000000000000000) ∧
      parseNumber "--9223372036854775808" = some (-0x8000000000000000) := by
  have hread : parseNumber "--5" = some 5 := by decide +kernel
  have hwritten : IsWritten (trim "--5".toList) true .minus 5 :=
    .negated (isMagnitude_iff.2 ⟨rfl, (readNumeral_eq_some_iff (by decide)).1 rfl⟩)
  refine ⟨hread, ?_, by decide +kernel, by decide, by decide +kernel⟩
  intro v hv
  obtain ⟨_, _, hplain, _, _⟩ := isNumber_iff.1 hv
  exact absurd (hwritten.unique hplain).1 (by decide)

end BinaryPatching.Text
