import BinaryPatching.Bytes.Hex

/-!
# `BinaryPatching.Proofs.Text.Hexadecimal` — hexadecimal texts read back

Words and bytes are written with capital digits of a fixed number, literals with as many small ones as it takes. All
are read back from their text.

## Contents
- `readDigits_append`, `readDigits_map_toDigits`: digits read one stretch after the other.
- `readUnsigned_hex8`: words.
- `afterHexMark_eq_some_iff`: the mark of hexadecimal literals.
- `parseNumber_eq_of_readDigits`, `isLiteral_toDigits`, `parseNumber_toDigits`: the literals of operands.
- `ofHex?_hex`: byte strings.
-/

namespace BinaryPatching

namespace Text

/-! ## Digits -/

/-- A digit of either case denotes the number it was made from. -/
theorem digitValue_digitChar : ∀ n < 16, digitValue n.digitChar = some n := by decide

theorem digitValue_toUpper_digitChar : ∀ n < 16, digitValue n.digitChar.toUpper = some n := by decide

/-- A digit of either case stands between `0` and `f`. -/
theorem bounds_of_digitValue {c : Char} {d : Nat} (h : digitValue c = some d) : 0x30 ≤ c.toNat ∧ c.toNat ≤ 0x66 := by
  unfold digitValue at h
  split at h
  · rename_i hrange
    have hlow : 0x30 ≤ c.toNat := hrange.1
    have hhigh : c.toNat ≤ 0x39 := hrange.2
    omega
  · split at h
    · rename_i hrange
      have hlow : 0x61 ≤ c.toNat := hrange.1
      have hhigh : c.toNat ≤ 0x66 := hrange.2
      omega
    · split at h
      · rename_i hrange
        have hlow : 0x41 ≤ c.toNat := hrange.1
        have hhigh : c.toNat ≤ 0x46 := hrange.2
        omega
      · cases h

theorem bounds_of_isDigitOf {c : Char} (h : isDigitOf 16 c = true) : 0x30 ≤ c.toNat ∧ c.toNat ≤ 0x66 := by
  unfold isDigitOf at h
  split at h
  · rename_i d hd
    exact bounds_of_digitValue hd
  · cases h

/-- A stretch of digits is read before the next one. -/
theorem readDigits_append (base value : Nat) (as bs : List Char) :
    readDigits base value (as ++ bs) = (readDigits base value as).bind (readDigits base · bs) := by
  induction as generalizing value with
  | nil => rfl
  | cons a as ih =>
    rw [List.cons_append, readDigits, readDigits]
    cases digitValue a with
    | none => rfl
    | some d =>
      by_cases hd : d < base
      · simp only [if_pos hd]
        exact ih _
      · simp only [if_neg hd]
        rfl

/-- A text is read if it consists of digits. -/
theorem isSome_readDigits (base value : Nat) (cs : List Char) :
    (readDigits base value cs).isSome = cs.all (isDigitOf base) := by
  induction cs generalizing value with
  | nil => rfl
  | cons c cs ih =>
    rw [readDigits, List.all_cons, isDigitOf]
    cases digitValue c with
    | none => rfl
    | some d =>
      by_cases hd : d < base
      · simp [hd, ih]
      · simp [hd]

theorem readDigits_singleton {base d : Nat} {c : Char} (h : digitValue c = some d) (hd : d < base) (value : Nat) :
    readDigits base value [c] = some (base * value + d) := by
  unfold readDigits
  rw [h]
  exact if_pos hd

/-- **The digits of a number** denote it, in any form in which every digit does. -/
theorem readDigits_map_toDigits {f : Char → Char} (hf : ∀ n < 16, digitValue (f n.digitChar) = some n) (n : Nat) :
    readDigits 16 0 ((Nat.toDigits 16 n).map f) = some n := by
  induction n using Nat.strongRecOn with
  | ind n ih =>
    rw [Nat.toDigits_eq_if (by decide)]
    have hdigit : digitValue (f (n % 16).digitChar) = some (n % 16) := hf _ (by omega)
    split
    · rename_i hlt
      rw [Nat.mod_eq_of_lt hlt] at hdigit
      rw [List.map_singleton, readDigits_singleton hdigit hlt, Nat.mul_zero, Nat.zero_add]
    · rename_i hge
      rw [List.map_append, List.map_singleton, readDigits_append, ih (n / 16) (by omega), Option.bind_some,
        readDigits_singleton hdigit (by omega)]
      congr 1
      omega

theorem readDigits_toDigits (n : Nat) : readDigits 16 0 (Nat.toDigits 16 n) = some n := by
  have hdigits := readDigits_map_toDigits (f := id) digitValue_digitChar n
  rwa [List.map_id] at hdigits

/-- Zeros in front change nothing. -/
theorem readDigits_replicate (k : Nat) (cs : List Char) :
    readDigits 16 0 (List.replicate k '0' ++ cs) = readDigits 16 0 cs := by
  induction k with
  | zero => rfl
  | succ k ih => exact ih

/-- **An unsigned number** that begins with a digit is read from its digits. -/
theorem readUnsigned_of_digits {base limit n : Nat} {c : Char} {cs : List Char} (hsign : c ≠ '+')
    (h : readDigits base 0 (c :: cs) = some n) (hn : n < limit) : readUnsigned base limit (c :: cs) = some n := by
  unfold readUnsigned
  split
  · rename_i heq
    exact absurd (List.cons.inj heq).1 hsign
  · show ((readDigits base 0 (c :: cs)).filter (· < limit)) = some n
    rw [h]
    exact Option.filter_some_pos (decide_eq_true hn)

/-- A digit is no sign. -/
theorem ne_plus_of_digitValue {c : Char} {n : Nat} (h : digitValue c = some n) : c ≠ '+' := by
  rintro rfl
  revert h
  decide +revert

/-- **A word** is read back from its text. -/
theorem readUnsigned_hex8 (w : UInt32) : readUnsigned 16 0x100000000 (hex8 w).toList = some w.toNat := by
  have hdigits : readDigits 16 0 (hex8 w).toList = some w.toNat := by
    rw [hex8, String.toList_ofList, List.leftpad, readDigits_replicate,
      readDigits_map_toDigits digitValue_toUpper_digitChar]
  cases hc : (hex8 w).toList with
  | nil =>
    have := length_hex8 w
    rw [hc] at this
    cases this
  | cons c cs =>
    rw [hc] at hdigits
    refine readUnsigned_of_digits ?_ hdigits w.toNat_lt
    rw [readDigits] at hdigits
    cases hv : digitValue c with
    | none =>
      rw [hv] at hdigits
      cases hdigits
    | some d => exact ne_plus_of_digitValue hv

/-- The digits of a number are digits. -/
theorem exists_of_mem_toDigits {n : Nat} {c : Char} (h : c ∈ Nat.toDigits 16 n) : ∃ d < 16, c = d.digitChar := by
  induction n using Nat.strongRecOn with
  | ind n ih =>
    rw [Nat.toDigits_eq_if (by decide)] at h
    split at h
    · rename_i hlt
      exact ⟨n, hlt, List.mem_singleton.1 h⟩
    · rename_i hge
      rcases List.mem_append.1 h with h | h
      · exact ih (n / 16) (by omega) h
      · exact ⟨n % 16, by omega, List.mem_singleton.1 h⟩

/-- What holds of all sixteen digits holds of the digits of a number. -/
theorem forall_mem_toDigits {p : Char → Prop} (hp : ∀ d < 16, p d.digitChar) (n : Nat) :
    ∀ c ∈ Nat.toDigits 16 n, p c := by
  intro c hc
  obtain ⟨d, hd, rfl⟩ := exists_of_mem_toDigits hc
  exact hp d hd

/-- What holds of all sixteen capital digits holds of the capital digits of a number. -/
theorem forall_mem_map_toDigits {p : Char → Prop} (hp : ∀ d < 16, p d.digitChar.toUpper) (n : Nat) :
    ∀ c ∈ (Nat.toDigits 16 n).map Char.toUpper, p c := by
  intro c hc
  obtain ⟨d, hd, rfl⟩ := List.mem_map.1 hc
  exact forall_mem_toDigits (p := (p ·.toUpper)) hp n d hd

theorem forall_mem_hex8 {p : Char → Prop} (hp : ∀ d < 16, p d.digitChar.toUpper) (w : UInt32) :
    ∀ c ∈ (hex8 w).toList, p c := by
  intro c hc
  rw [hex8, String.toList_ofList, List.leftpad] at hc
  rcases List.mem_append.1 hc with hc | hc
  · rw [(List.mem_replicate.1 hc).2]
    exact hp 0 (by decide)
  · exact forall_mem_map_toDigits hp _ c hc

/-! ## Literals -/

theorem toDigits_ne_nil (n : Nat) : Nat.toDigits 16 n ≠ [] := by
  rw [Nat.toDigits_eq_if (by decide)]
  split
  · exact List.cons_ne_nil _ _
  · exact List.append_ne_nil_of_right_ne_nil _ (List.cons_ne_nil _ _)

/-- The mark has a letter of either case. -/
theorem afterHexMark_eq_some_iff {number digits : List Char} :
    afterHexMark number = some digits ↔ ∃ mark, (mark = 'x' ∨ mark = 'X') ∧ number = '0' :: mark :: digits := by
  constructor
  · intro h
    unfold afterHexMark at h
    split at h
    · cases h
      exact ⟨'x', .inl rfl, rfl⟩
    · cases h
      exact ⟨'X', .inr rfl, rfl⟩
    · cases h
  · rintro ⟨mark, rfl | rfl, rfl⟩ <;> rfl

/-- A number in hexadecimal, as operands show it. -/
theorem isLiteral_toDigits (n : Nat) : isLiteral ('0' :: 'x' :: Nat.toDigits 16 n) = true := by
  have hall : (Nat.toDigits 16 n).all (isDigitOf 16) = true :=
    List.all_eq_true.2 (forall_mem_toDigits (by decide) n)
  show (!(Nat.toDigits 16 n).isEmpty && (Nat.toDigits 16 n).all (isDigitOf 16)) = true
  rw [hall, Bool.and_true, Bool.not_eq_true', List.isEmpty_eq_false_iff]
  exact toDigits_ne_nil n

/-- A signed number without a sign is read from its digits, if it fits 64 bits. -/
theorem readSigned_eq_of_readDigits {digits : List Char} {n : Nat} (hdigits : digits ≠ [])
    (h : readDigits 16 0 digits = some n) :
    readSigned 16 digits = if n < 0x8000000000000000 then some (n : Int) else none := by
  unfold readSigned
  split
  · cases h
  · cases h
  · rw [readNumeral, List.isEmpty_eq_false_iff.2 hdigits, if_neg Bool.false_ne_true, h]
    by_cases hn : n < 0x8000000000000000
    · simp [Option.filter, hn]
    · simp [Option.filter, hn]

/-- A character that is neither a digit nor the mark is not in a literal. -/
theorem not_mem_hexLiteral {c : Char} (hmark : c ≠ 'x') (hdigits : ∀ d < 16, d.digitChar ≠ c) (n : Nat) :
    c ∉ '0' :: 'x' :: Nat.toDigits 16 n := by
  intro h
  rcases List.mem_cons.1 h with rfl | h
  · exact hdigits 0 (by decide) rfl
  rcases List.mem_cons.1 h with rfl | h
  · exact hmark rfl
  · exact forall_mem_toDigits (p := (· ≠ c)) hdigits n c h rfl

/-- There is no blank in a literal. -/
theorem isBlank_hexLiteral (n : Nat) : ∀ c ∈ '0' :: 'x' :: Nat.toDigits 16 n, isBlank c = false := by
  intro c hc
  rcases List.mem_cons.1 hc with rfl | hc
  · rfl
  rcases List.mem_cons.1 hc with rfl | hc
  · rfl
  · exact forall_mem_toDigits (p := (isBlank · = false)) (by decide) n c hc

/-- A literal in hexadecimal is read from the digits behind its mark, if it fits 64 bits. -/
theorem parseNumber_eq_of_readDigits {mark : Char} {digits : List Char} {n : Nat} (hmark : mark = 'x' ∨ mark = 'X')
    (hdigits : digits ≠ []) (hblank : ∀ c ∈ '0' :: mark :: digits, isBlank c = false)
    (h : readDigits 16 0 digits = some n) :
    parseNumber (String.ofList ('0' :: mark :: digits)) = if n < 0x8000000000000000 then some (n : Int) else none := by
  have hread : parseNumber (String.ofList ('0' :: mark :: digits)) = (readSigned 16 digits).map fun v => v := by
    unfold parseNumber
    rw [String.toList_ofList, trim_of_no_blank hblank]
    rcases hmark with rfl | rfl <;> rfl
  rw [hread, readSigned_eq_of_readDigits hdigits h]
  split <;> rfl

/-- A literal in hexadecimal is read from the digits behind its mark. -/
theorem parseNumber_of_readDigits {digits : List Char} {n : Nat} (hdigits : digits ≠ [])
    (hblank : ∀ c ∈ '0' :: 'x' :: digits, isBlank c = false) (h : readDigits 16 0 digits = some n)
    (hn : n < 0x8000000000000000) : parseNumber (String.ofList ('0' :: 'x' :: digits)) = some (n : Int) :=
  (parseNumber_eq_of_readDigits (.inl rfl) hdigits hblank h).trans (if_pos hn)

/-- **A literal in hexadecimal** is read back as its number. -/
theorem parseNumber_toDigits {n : Nat} (hn : n < 0x8000000000000000) :
    parseNumber (String.ofList ('0' :: 'x' :: Nat.toDigits 16 n)) = some (n : Int) :=
  parseNumber_of_readDigits (toDigits_ne_nil n) (isBlank_hexLiteral n) (readDigits_toDigits n) hn

end Text

open Text

namespace Bytes

/-! ## Byte strings -/

theorem digitValue_hexDigit : ∀ n < 16, digitValue (hexDigit n) = some n := by decide

/-- A byte is read back from its pair of digits. -/
theorem bytePair?_hexPair (b : UInt8) : bytePair? (hexDigit (b.toNat / 16)) (hexDigit (b.toNat % 16)) = some b := by
  have hlt := b.toNat_lt
  have hhigh := digitValue_hexDigit (b.toNat / 16) (by omega)
  have hlow := digitValue_hexDigit (b.toNat % 16) (by omega)
  have hdigits : readDigits 16 0 [hexDigit (b.toNat / 16), hexDigit (b.toNat % 16)] = some b.toNat := by
    rw [← List.singleton_append, readDigits_append, readDigits_singleton hhigh (by omega), Option.bind_some,
      readDigits_singleton hlow (by omega)]
    congr 1
    omega
  unfold bytePair?
  rw [readUnsigned_of_digits (ne_plus_of_digitValue hhigh) hdigits hlt, Option.map_some, UInt8.ofNat_toNat]

/-- What holds of all sixteen digits holds of those of a byte string. -/
theorem forall_mem_hex {p : Char → Prop} (hp : ∀ n < 16, p (hexDigit n)) (data : Bytes) :
    ∀ c ∈ (hex data).toList, p c := by
  intro c hc
  rw [toList_hex] at hc
  obtain ⟨b, _, hb⟩ := List.mem_flatMap.1 hc
  have hlt := b.toNat_lt
  rcases List.mem_cons.1 hb with rfl | hb
  · exact hp _ (by omega)
  · rw [List.mem_singleton.1 hb]
    exact hp _ (by omega)

/-- **A byte string** is read back from its text. -/
theorem ofHex?_hex (data : Bytes) : ofHex? (hex data) = some data := by
  have hblank : ∀ c ∈ (hex data).toList, isBlank c = false :=
    forall_mem_hex (p := (isBlank · = false)) (by decide) data
  unfold ofHex?
  rw [trim_of_no_blank hblank, toList_hex]
  clear hblank
  induction data with
  | nil => rfl
  | cons b rest ih =>
    show ofPairs? (hexDigit (b.toNat / 16) :: hexDigit (b.toNat % 16) :: rest.flatMap hexPair) = _
    unfold ofPairs?
    rw [bytePair?_hexPair, ih]

end Bytes

end BinaryPatching
