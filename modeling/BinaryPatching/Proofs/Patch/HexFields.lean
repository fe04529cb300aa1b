import BinaryPatching.Patch.Format
import BinaryPatching.Proofs.Text.Numerals

/-!
# `BinaryPatching.Proofs.Patch.HexFields` — which texts the fields of a store accept

The bytes of a field are read in pairs, and an address behind its mark, both by the reader of unsigned numbers. That
reader lets a plus sign stand before the digits. So a plus sign in place of the first digit of a pair counts as a zero,
and there may be one behind the mark of an address. Any other text that is accepted is hexadecimal.

## Contents
- `IsHexOf`: the hexadecimal text of bytes, in either case.
- `IsPair`, `bytePair?_eq_some_iff`: one pair.
- `ofHex?_eq_some_iff`: all pairs.
- `IsAddress`, `readAddress_eq_some_iff`: addresses.
- `hexFields_exact`: what the fields accept.
-/

namespace BinaryPatching

open Text

namespace Bytes

/-! ## Pairs of digits -/

/-- **The hexadecimal text of bytes**, in either case. -/
structure IsHexOf (cs : List Char) (bytes : Bytes) : Prop where
  /-- There is an even number of characters. -/
  even : cs.length % 2 = 0
  /-- All of them are digits. -/
  digits : ∀ c ∈ cs, ∃ d, IsDigit 16 c d
  /-- In capitals it is the text that is written for the bytes. -/
  capitals : (hex bytes).toList = cs.map Char.toUpper

/-- The byte that a pair of digits denotes. -/
def IsPair (a b : Char) (byte : UInt8) : Prop :=
  ∃ high low, IsDigit 16 a high ∧ IsDigit 16 b low ∧ byte.toNat = 16 * high + low

/-- The capital of a digit is the digit that is written. -/
theorem toUpper_of_isDigit {c : Char} {d : Nat} (h : IsDigit 16 c d) : c.toUpper = hexDigit d := by
  have hsmall : ∀ d < 16, d.digitChar.toUpper = hexDigit d := by decide
  have hcapital : ∀ d < 16, d.digitChar.toUpper.toUpper = hexDigit d := by decide
  obtain ⟨hd, rfl | rfl⟩ := h
  · exact hsmall d hd
  · exact hcapital d hd

theorem hexDigit_inj {m n : Nat} (hm : m < 16) (hn : n < 16) : hexDigit m = hexDigit n ↔ m = n := by
  refine ⟨fun h => ?_, fun h => h ▸ rfl⟩
  have hvalue := digitValue_hexDigit m hm
  rw [h, digitValue_hexDigit n hn] at hvalue
  exact (Option.some.inj hvalue).symm

/-- **The pair that is written for a byte** is, up to the case of its digits, the one that denotes it. -/
theorem isPair_iff {a b : Char} {byte : UInt8} :
    IsPair a b byte ↔
      (∃ high, IsDigit 16 a high) ∧ (∃ low, IsDigit 16 b low) ∧ hexPair byte = [a.toUpper, b.toUpper] := by
  have hbyte := byte.toNat_lt
  have hwritten {high low : Nat} (ha : IsDigit 16 a high) (hb : IsDigit 16 b low) :
      hexPair byte = [a.toUpper, b.toUpper] ↔ byte.toNat = 16 * high + low := by
    have hhigh := ha.1
    have hlow := hb.1
    rw [toUpper_of_isDigit ha, toUpper_of_isDigit hb, hexPair, List.cons.injEq, List.cons.injEq,
      hexDigit_inj (by omega) hhigh, hexDigit_inj (by omega) hlow, and_iff_left rfl]
    omega
  constructor
  · rintro ⟨high, low, ha, hb, hvalue⟩
    exact ⟨⟨high, ha⟩, ⟨low, hb⟩, (hwritten ha hb).2 hvalue⟩
  · rintro ⟨⟨high, ha⟩, ⟨low, hb⟩, hpair⟩
    exact ⟨high, low, ha, hb, (hwritten ha hb).1 hpair⟩

theorem isHexOf_nil {bytes : Bytes} : IsHexOf [] bytes ↔ bytes = [] := by
  constructor
  · rintro ⟨-, -, hcapitals⟩
    have hlength := length_hex bytes
    rw [hcapitals] at hlength
    exact List.eq_nil_of_length_eq_zero (by simpa using hlength.symm)
  · rintro rfl
    exact ⟨rfl, fun _ hc => absurd hc List.not_mem_nil, rfl⟩

/-- **The first pair** of a text is that of the first byte. -/
theorem isHexOf_cons_cons {a b : Char} {cs : List Char} {bytes : Bytes} :
    IsHexOf (a :: b :: cs) bytes ↔ ∃ byte rest, bytes = byte :: rest ∧ IsPair a b byte ∧ IsHexOf cs rest := by
  constructor
  · rintro ⟨heven, hdigits, hcapitals⟩
    rw [toList_hex] at hcapitals
    cases bytes with
    | nil => cases hcapitals
    | cons byte rest =>
      have hparts : hexPair byte ++ rest.flatMap hexPair = [a.toUpper, b.toUpper] ++ cs.map Char.toUpper := hcapitals
      obtain ⟨hpair, hrest⟩ := List.append_inj hparts rfl
      refine ⟨byte, rest, rfl, isPair_iff.2 ⟨hdigits a (by simp), hdigits b (by simp), hpair⟩, ?_, ?_, ?_⟩
      · rwa [List.length_cons, List.length_cons, Nat.add_assoc, Nat.add_mod_right] at heven
      · exact fun c hc => hdigits c (by simp [hc])
      · rw [toList_hex, hrest]
  · rintro ⟨byte, rest, rfl, hpair, heven, hdigits, hcapitals⟩
    obtain ⟨ha, hb, hwritten⟩ := isPair_iff.1 hpair
    refine ⟨?_, ?_, ?_⟩
    · rwa [List.length_cons, List.length_cons, Nat.add_assoc, Nat.add_mod_right]
    · intro c hc
      simp only [List.mem_cons] at hc
      rcases hc with rfl | rfl | hc
      · exact ha
      · exact hb
      · exact hdigits c hc
    · rw [toList_hex, List.flatMap_cons, hwritten, ← toList_hex, hcapitals]
      rfl

/-! ## Texts of pairs -/

/-- A plus sign as the zero that it is read as. -/
def plusDigit (c : Char) : Char := if c = '+' then '0' else c

/-- A text with a zero for every plus sign that begins a pair. -/
def plusAsZero : List Char → List Char
  | [] => []
  | [a] => [a]
  | a :: b :: rest => plusDigit a :: b :: plusAsZero rest

theorem denotes_singleton {c : Char} {n : Nat} : Denotes 16 [c] n ↔ IsDigit 16 c n := by
  simp [Denotes, List.forall₂_cons_left_iff]

theorem denotes_pair {a b : Char} {n : Nat} :
    Denotes 16 [a, b] n ↔ ∃ high low, IsDigit 16 a high ∧ IsDigit 16 b low ∧ n = 16 * high + low := by
  have hvalue (high low : Nat) : Nat.ofDigits 16 [high, low].reverse = 16 * high + low := by
    show Nat.ofDigits 16 [low, high] = 16 * high + low
    rw [Nat.ofDigits_cons, Nat.ofDigits_singleton, Nat.add_comm]
  constructor
  · rintro ⟨-, ds, hds, rfl⟩
    obtain _ | ⟨ha, _ | ⟨hb, ⟨⟩⟩⟩ := hds
    exact ⟨_, _, ha, hb, hvalue _ _⟩
  · rintro ⟨high, low, ha, hb, rfl⟩
    exact ⟨List.cons_ne_nil _ _, [high, low], .cons ha (.cons hb .nil), (hvalue high low).symm⟩

/-- **A pair is read** as the byte it denotes. A plus sign may stand for the first of its digits. -/
theorem bytePair?_eq_some_iff {a b : Char} {byte : UInt8} :
    bytePair? a b = some byte ↔ IsPair (plusDigit a) b byte := by
  rw [bytePair?, map_readUnsigned_eq_some_iff (Nat.le_refl 16) (fun _ => UInt8.toNat_ofNat_of_lt')
    (fun _ => UInt8.ofNat_toNat) UInt8.toNat_lt, denotes_pair]
  by_cases ha : a = '+'
  · subst ha
    constructor
    · rintro (⟨_, _, hplus, _⟩ | ⟨digits, hcs, hdigits⟩)
      · exact absurd hplus (not_isDigit (by decide))
      · cases hcs
        exact ⟨0, _, by decide, denotes_singleton.1 hdigits, by omega⟩
    · rintro ⟨high, low, hzero, hb, hvalue⟩
      obtain rfl : high = 0 := (denotes_singleton.2 hzero).unique (by omega) (denotes_singleton.2 (by decide))
      rw [Nat.mul_zero, Nat.zero_add] at hvalue
      exact .inr ⟨[b], rfl, denotes_singleton.2 (hvalue ▸ hb)⟩
  · have hsign : ¬∃ digits, [a, b] = '+' :: digits ∧ Denotes 16 digits byte.toNat :=
      fun ⟨_, hcs, _⟩ => ha (List.cons.inj hcs).1
    rw [plusDigit, if_neg ha, or_iff_left hsign]
    rfl

/-- Nothing is changed in a text without a plus sign. -/
theorem plusAsZero_of_not_mem {cs : List Char} (h : '+' ∉ cs) : plusAsZero cs = cs := by
  induction cs using plusAsZero.induct with
  | case1 => rfl
  | case2 a => rfl
  | case3 a b rest ih =>
    have ha : a ≠ '+' := fun ha => h (by simp [ha])
    rw [plusAsZero, plusDigit, if_neg ha, ih (fun hrest => h (by simp [hrest]))]

/-- A plus sign is no digit. -/
theorem IsHexOf.not_mem_plus {cs : List Char} {bytes : Bytes} (h : IsHexOf cs bytes) : '+' ∉ cs := by
  intro hplus
  obtain ⟨d, hd⟩ := h.digits '+' hplus
  exact not_isDigit (by decide) hd

/-- The first pair is read before the others. -/
theorem ofPairs?_cons_cons_eq_some_iff {a b : Char} {cs : List Char} {bytes : Bytes} :
    ofPairs? (a :: b :: cs) = some bytes ↔
      ∃ byte rest, bytes = byte :: rest ∧ bytePair? a b = some byte ∧ ofPairs? cs = some rest := by
  rw [ofPairs?]
  cases bytePair? a b with
  | none => simp
  | some byte =>
    cases ofPairs? cs with
    | none => simp
    | some rest => simp [eq_comm]

/-- **A text is read** as the bytes of its pairs. -/
theorem ofPairs?_eq_some_iff {cs : List Char} {bytes : Bytes} :
    ofPairs? cs = some bytes ↔ IsHexOf (plusAsZero cs) bytes := by
  induction cs using plusAsZero.induct generalizing bytes with
  | case1 => rw [ofPairs?, plusAsZero, isHexOf_nil, Option.some.injEq, eq_comm]
  | case2 a =>
    have hodd : ¬IsHexOf [a] bytes := fun h => absurd h.even Nat.one_ne_zero
    rw [ofPairs?, plusAsZero]
    simp [hodd]
  | case3 a b rest ih =>
    rw [plusAsZero, isHexOf_cons_cons, ofPairs?_cons_cons_eq_some_iff]
    simp only [bytePair?_eq_some_iff, ih]

theorem ofHex?_eq_some_iff {text : String} {bytes : Bytes} :
    ofHex? text = some bytes ↔ IsHexOf (plusAsZero (trim text.toList)) bytes :=
  ofPairs?_eq_some_iff

end Bytes

/-! ## Addresses -/

/-- **An address as it is written**: its mark, with the letter of either case, and digits that denote it. -/
def IsAddress (sign : Sign) (cs : List Char) (address : UInt32) : Prop :=
  ∃ mark digits, (mark = 'x' ∨ mark = 'X') ∧ cs = '0' :: mark :: (sign.written ++ digits) ∧
    Denotes 16 digits address.toNat

/-- **An address is read** from its digits. A plus sign may stand before them. -/
theorem readAddress_eq_some_iff {text : String} {address : UInt32} :
    readAddress text = some address ↔
      IsAddress .absent text.toList address ∨ IsAddress .plus text.toList address := by
  rw [readAddress, Option.bind_eq_some_iff]
  simp only [map_readUnsigned_eq_some_iff (Nat.le_refl 16) (fun _ => UInt32.toNat_ofNat_of_lt')
    (fun _ => UInt32.ofNat_toNat) UInt32.toNat_lt, afterHexMark_eq_some_iff]
  constructor
  · rintro ⟨cs, ⟨mark, hmark, htext⟩, hdigits | ⟨digits, rfl, hdigits⟩⟩
    · exact .inl ⟨mark, cs, hmark, htext, hdigits⟩
    · exact .inr ⟨mark, digits, hmark, htext, hdigits⟩
  · rintro (⟨mark, digits, hmark, htext, hdigits⟩ | ⟨mark, digits, hmark, htext, hdigits⟩)
    · exact ⟨digits, ⟨mark, hmark, htext⟩, .inl hdigits⟩
    · exact ⟨'+' :: digits, ⟨mark, hmark, htext⟩, .inr ⟨digits, rfl, hdigits⟩⟩

theorem IsAddress.isMagnitude {sign : Sign} {cs : List Char} {address : UInt32} (h : IsAddress sign cs address) :
    IsMagnitude sign cs address.toNat := by
  obtain ⟨mark, digits, hmark, rfl, hdigits⟩ := h
  exact .hexadecimal hmark hdigits

/-! ## What the fields accept -/

theorem bytesOfJson_text_eq_ok_iff {text : String} {bytes : Bytes} :
    bytesOfJson (.text text) = .ok bytes ↔ Bytes.ofHex? text = some bytes := by
  unfold bytesOfJson
  simp only [Json.textOf, Json.text]
  cases Bytes.ofHex? text <;> simp

theorem addressOfJson_text_eq_ok_iff {text : String} {address : UInt32} :
    addressOfJson (.text text) = .ok address ↔ readAddress text = some address := by
  unfold addressOfJson
  simp only [Json.textOf, Json.text]
  cases readAddress text <;> simp

/-- **What the fields of a store accept.** Bytes are accepted as the hexadecimal text of pairs with a zero for every plus
sign that begins one, and an address as its mark and its digits with a plus sign between them or none. So a field accepts
just what is hexadecimal, as what it denotes, unless its text is accepted with a plus sign. -/
theorem hexFields_exact (text : String) :
    (∀ bytes, (Bytes.ofHex? text = some bytes ↔ Bytes.IsHexOf (Bytes.plusAsZero (trim text.toList)) bytes) ∧
        (bytesOfJson (.text text) = .ok bytes ↔ Bytes.ofHex? text = some bytes)) ∧
      ((∀ bytes, Bytes.ofHex? text = some bytes ↔ Bytes.IsHexOf (trim text.toList) bytes) ↔
        ('+' ∈ trim text.toList → Bytes.ofHex? text = none)) ∧
      (∀ address, addressOfJson (.text text) = .ok address ↔
        IsAddress .absent text.toList address ∨ IsAddress .plus text.toList address) ∧
      ((∀ address, addressOfJson (.text text) = .ok address ↔ IsAddress .absent text.toList address) ↔
        ∀ address, ¬IsAddress .plus text.toList address) := by
  have haddress (address : UInt32) : addressOfJson (.text text) = .ok address ↔
      IsAddress .absent text.toList address ∨ IsAddress .plus text.toList address :=
    addressOfJson_text_eq_ok_iff.trans readAddress_eq_some_iff
  refine ⟨fun bytes => ⟨Bytes.ofHex?_eq_some_iff, bytesOfJson_text_eq_ok_iff⟩, ⟨?_, ?_⟩, haddress, ⟨?_, ?_⟩⟩
  · intro hexact hplus
    rw [Option.eq_none_iff_forall_ne_some]
    intro bytes hread
    exact ((hexact bytes).1 hread).not_mem_plus hplus
  · intro hrefused bytes
    by_cases hplus : '+' ∈ trim text.toList
    · rw [hrefused hplus]
      exact ⟨fun hnone => absurd hnone nofun, fun h => absurd hplus h.not_mem_plus⟩
    · rw [Bytes.ofHex?_eq_some_iff, Bytes.plusAsZero_of_not_mem hplus]
  · intro hexact address hplus
    have hplain := (hexact address).1 ((haddress address).2 (.inr hplus))
    exact Sign.noConfusion (hplain.isMagnitude.unique hplus.isMagnitude).1
  · intro hplain address
    rw [haddress, or_iff_left (hplain address)]

/-- A plus sign in place of a digit is accepted in bytes, and behind the mark in an address, though neither text is
hexadecimal. -/
theorem hexFields_plusSign :
    bytesOfJson (.text "+5") = .ok [5] ∧ ¬Bytes.IsHexOf (trim "+5".toList) [5] ∧
      addressOfJson (.text "0x+10") = .ok 0x10 ∧ ¬IsAddress .absent "0x+10".toList 0x10 := by
  refine ⟨bytesOfJson_text_eq_ok_iff.2 (by decide +kernel), fun h => h.not_mem_plus (by decide), ?_, ?_⟩
  · exact addressOfJson_text_eq_ok_iff.2 (by decide +kernel)
  · intro hplain
    have hplus : IsMagnitude .plus "0x+10".toList 0x10 :=
      isMagnitude_iff.2 ⟨rfl, (readNumeral_eq_some_iff (Nat.le_refl 16)).1 rfl⟩
    exact Sign.noConfusion (hplain.isMagnitude.unique hplus).1

end BinaryPatching
