import BinaryPatching.Text.CodePointSet
import BinaryPatching.Text.LowercaseTable

/-!
# `BinaryPatching.Text.Lowercase` — small letters, with and without other scripts

Two notions of "the same but for case" live side by side: names of the library's own vocabulary are compared
without ASCII case, free text is put into small letters in every script.

## Contents
- `equalIgnoringCase`: equality up to the case of the letters `A` to `Z`.
- `lowercase`: the text in small letters, where a capital sigma at the end of a word takes its final form.
-/

namespace BinaryPatching.Text

/-! ## ASCII case -/

/-- Equality of two texts up to the case of the ASCII letters. -/
def equalIgnoringCase (a b : String) : Bool :=
  a.toList.map Char.toLower == b.toList.map Char.toLower

theorem equalIgnoringCase_iff {a b : String} :
    equalIgnoringCase a b = true ↔ a.toList.map Char.toLower = b.toList.map Char.toLower := by
  simp [equalIgnoringCase]

@[simp] theorem equalIgnoringCase_refl (a : String) : equalIgnoringCase a a = true := by
  simp [equalIgnoringCase]

theorem equalIgnoringCase_symm {a b : String} (h : equalIgnoringCase a b = true) :
    equalIgnoringCase b a = true :=
  equalIgnoringCase_iff.2 (equalIgnoringCase_iff.1 h).symm

theorem equalIgnoringCase_trans {a b c : String} (h1 : equalIgnoringCase a b = true)
    (h2 : equalIgnoringCase b c = true) : equalIgnoringCase a c = true :=
  equalIgnoringCase_iff.2 ((equalIgnoringCase_iff.1 h1).trans (equalIgnoringCase_iff.1 h2))

theorem equalIgnoringCase_congr {a b : String} (h : equalIgnoringCase a b = true) (text : String) :
    equalIgnoringCase text a = equalIgnoringCase text b := by
  rw [Bool.eq_iff_iff]
  exact ⟨fun hta => equalIgnoringCase_trans hta h, fun htb => equalIgnoringCase_trans htb (equalIgnoringCase_symm h)⟩

theorem equalIgnoringCase_eq_false {a b text : String} (h : equalIgnoringCase a b = false)
    (hta : equalIgnoringCase text a = true) : equalIgnoringCase text b = false := by
  rw [← Bool.not_eq_true]
  intro htb
  have hab := equalIgnoringCase_trans (equalIgnoringCase_symm hta) htb
  rw [h] at hab
  cases hab

/-! ## Every script -/

/-- The small letter of a code point by one row of the table, if the row holds it. -/
def lowerByRow (n : Nat) (row : Nat × Nat × Nat × Nat) : Option Nat :=
  let (first, last, step, small) := row
  if first ≤ n ∧ n ≤ last ∧ (n - first) % step = 0 then some (small + (n - first)) else none

/-- The small form of a character by itself. Only the capital dotted I has a form of two characters. -/
def lowerChar (c : Char) : List Char :=
  if c.toNat < 0x80 then [c.toLower]
  else if c.toNat = 0x130 then ['i', Char.ofNat 0x307]
  else [((lowercaseRows.findSome? (lowerByRow c.toNat)).map Char.ofNat).getD c]

theorem lowerChar_of_ascii {c : Char} (h : c.toNat < 0x80) : lowerChar c = [c.toLower] := by
  simp [lowerChar, h]

/-- Whether a cased letter comes next, past the characters that do not interrupt a word. -/
def casedNext (cs : List Char) : Bool :=
  match cs.dropWhile (inBoundaries ignorableBoundaries) with
  | [] => false
  | c :: _ => inBoundaries casedBoundaries c

/-- The small letters of a text of which `before` has been read, last character first. A capital sigma after a
    cased letter and before none is final. -/
def lowercaseFrom (before : List Char) : List Char → List Char
  | [] => []
  | c :: rest =>
    (if c.toNat = 0x3A3 then
      [Char.ofNat (if casedNext before && !casedNext rest then 0x3C2 else 0x3C3)]
    else lowerChar c) ++ lowercaseFrom (c :: before) rest

/-- The text in small letters. -/
def lowercase (cs : List Char) : List Char := lowercaseFrom [] cs

/-- On ASCII text, small letters are taken character by character. -/
theorem lowercaseFrom_of_ascii {cs : List Char} (h : ∀ c ∈ cs, c.toNat < 0x80) (before : List Char) :
    lowercaseFrom before cs = cs.map Char.toLower := by
  induction cs generalizing before with
  | nil => rfl
  | cons c rest ih =>
    have hc : c.toNat < 0x80 := h c (by simp)
    have hs : c.toNat ≠ 0x3A3 := by omega
    simp only [lowercaseFrom, if_neg hs, lowerChar_of_ascii hc, List.map_cons]
    rw [ih (fun d hd => h d (by simp [hd]))]
    rfl

theorem lowercase_of_ascii {cs : List Char} (h : ∀ c ∈ cs, c.toNat < 0x80) :
    lowercase cs = cs.map Char.toLower :=
  lowercaseFrom_of_ascii h []

end BinaryPatching.Text
