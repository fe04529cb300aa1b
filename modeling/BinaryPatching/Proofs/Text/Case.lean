import BinaryPatching.Text.Lowercase

/-!
# `BinaryPatching.Proofs.Text.Case` — how the two notions of case compare

Texts that differ in the case of ASCII letters only have the same small letters, so that `lowercase` identifies at
least what `equalIgnoringCase` does. It identifies more, and `Clash` names what lies between.

## Contents
- `IsLetter`: the letters of ASCII, and what the tables of the other scripts say of them.
- `lowercase_eq_of_equalIgnoringCase`: the comparison.
- `Clash`: two texts with the same small letters that differ in more than the case of ASCII letters.
-/

namespace BinaryPatching.Text

/-! ## Single letters -/

/-- The letters of ASCII, by their code points. -/
def IsLetter (n : Nat) : Prop := (65 ≤ n ∧ n ≤ 90) ∨ (97 ≤ n ∧ n ≤ 122)

instance (n : Nat) : Decidable (IsLetter n) := inferInstanceAs (Decidable (_ ∨ _))

theorem toNat_toLower (c : Char) :
    c.toLower.toNat = if 65 ≤ c.toNat ∧ c.toNat ≤ 90 then c.toNat + 32 else c.toNat := by
  unfold Char.toLower
  have hcond : (c.val ≥ 'A'.val ∧ c.val ≤ 'Z'.val) ↔ (65 ≤ c.toNat ∧ c.toNat ≤ 90) := by
    rw [ge_iff_le, UInt32.le_iff_toNat_le, UInt32.le_iff_toNat_le]
    rfl
  split
  · rename_i h
    have hle := (hcond.1 h).2
    rw [if_pos (hcond.1 h)]
    show (c.val + ('a'.val - 'A'.val)).toNat = c.val.toNat + 32
    rw [UInt32.toNat_add]
    exact Nat.mod_eq_of_lt (by have : c.val.toNat ≤ 90 := hle; show c.val.toNat + 32 < _; omega)
  · rename_i h
    rw [if_neg (fun hc => h (hcond.2 hc))]

/-- The characters of ASCII that are no capital letters. -/
def isUncapital (c : Char) : Bool := c.toNat < 0x80 && (c.toNat < 65 || 90 < c.toNat)

theorem isUncapital_iff {c : Char} : isUncapital c = true ↔ c.toNat < 0x80 ∧ ¬(65 ≤ c.toNat ∧ c.toNat ≤ 90) := by
  simp only [isUncapital, Bool.and_eq_true, Bool.or_eq_true, decide_eq_true_eq]
  omega

/-- A text of ASCII without capital letters is in small letters. -/
theorem lowercase_eq_self {cs : List Char} (h : ∀ c ∈ cs, isUncapital c = true) : lowercase cs = cs := by
  have hsame : ∀ c ∈ cs, c.toLower = id c := by
    intro c hc
    refine Char.toNat_inj.1 ?_
    rw [toNat_toLower, if_neg (isUncapital_iff.1 (h c hc)).2]
    rfl
  rw [lowercase_of_ascii fun c hc => (isUncapital_iff.1 (h c hc)).1, List.map_congr_left hsame, List.map_id]

/-- **The same small letter**: two characters that have one are the same, or both are letters of ASCII. -/
theorem eq_or_letters_of_toLower_eq {c d : Char} (h : c.toLower = d.toLower) :
    c = d ∨ (IsLetter c.toNat ∧ IsLetter d.toNat) := by
  have hn := congrArg Char.toNat h
  rw [toNat_toLower, toNat_toLower] at hn
  unfold IsLetter
  by_cases hcd : c.toNat = d.toNat
  · exact .inl (Char.toNat_inj.1 hcd)
  · right
    split at hn <;> split at hn <;> omega

/-- Letters of ASCII have case. -/
theorem cased_of_isLetter {c : Char} (h : IsLetter c.toNat) : inBoundaries casedBoundaries c = true := by
  have hall : ∀ n < 123, IsLetter n → ((casedBoundaries.takeWhile (· ≤ n)).length % 2 == 1) = true := by decide
  exact hall c.toNat (by unfold IsLetter at h; omega) h

/-- Letters of ASCII interrupt a word. -/
theorem not_ignorable_of_isLetter {c : Char} (h : IsLetter c.toNat) : inBoundaries ignorableBoundaries c = false := by
  have hall : ∀ n < 123, IsLetter n → ((ignorableBoundaries.takeWhile (· ≤ n)).length % 2 == 1) = false := by decide
  exact hall c.toNat (by unfold IsLetter at h; omega) h

/-- A letter of ASCII has one small form in either sense. -/
theorem lowerChar_eq_of_toLower_eq {c d : Char} (h : c.toLower = d.toLower) : lowerChar c = lowerChar d := by
  rcases eq_or_letters_of_toLower_eq h with rfl | ⟨hc, hd⟩
  · rfl
  · unfold IsLetter at hc hd
    rw [lowerChar_of_ascii (by omega), lowerChar_of_ascii (by omega), h]

/-! ## Texts -/

/-- What comes next has case or not, whatever the case of the ASCII letters. -/
theorem casedNext_eq {as bs : List Char} (h : as.map Char.toLower = bs.map Char.toLower) :
    casedNext as = casedNext bs := by
  induction as generalizing bs with
  | nil =>
    rw [List.map_nil, eq_comm, List.map_eq_nil_iff] at h
    rw [h]
  | cons a as ih =>
    cases bs with
    | nil => cases h
    | cons b bs =>
      rw [List.map_cons, List.map_cons, List.cons.injEq] at h
      obtain ⟨hab, hrest⟩ := h
      unfold casedNext
      rcases eq_or_letters_of_toLower_eq hab with rfl | ⟨ha, hb⟩
      · by_cases hi : inBoundaries ignorableBoundaries a = true
        · rw [List.dropWhile_cons_of_pos hi, List.dropWhile_cons_of_pos hi]
          exact ih hrest
        · rw [List.dropWhile_cons_of_neg hi, List.dropWhile_cons_of_neg hi]
      · rw [List.dropWhile_cons_of_neg (by rw [not_ignorable_of_isLetter ha]; exact Bool.false_ne_true),
          List.dropWhile_cons_of_neg (by rw [not_ignorable_of_isLetter hb]; exact Bool.false_ne_true)]
        show inBoundaries casedBoundaries a = inBoundaries casedBoundaries b
        rw [cased_of_isLetter ha, cased_of_isLetter hb]

theorem lowercaseFrom_eq {as bs : List Char} (h : as.map Char.toLower = bs.map Char.toLower) {cs ds : List Char}
    (hread : cs.map Char.toLower = ds.map Char.toLower) : lowercaseFrom cs as = lowercaseFrom ds bs := by
  induction as generalizing bs cs ds with
  | nil =>
    rw [List.map_nil, eq_comm, List.map_eq_nil_iff] at h
    rw [h]
    rfl
  | cons a as ih =>
    cases bs with
    | nil => cases h
    | cons b bs =>
      rw [List.map_cons, List.map_cons, List.cons.injEq] at h
      obtain ⟨hab, hrest⟩ := h
      have hnext : lowercaseFrom (a :: cs) as = lowercaseFrom (b :: ds) bs :=
        ih hrest (by rw [List.map_cons, List.map_cons, hab, hread])
      have hsigma : a.toNat = 0x3A3 ↔ b.toNat = 0x3A3 := by
        rcases eq_or_letters_of_toLower_eq hab with rfl | ⟨ha, hb⟩
        · rfl
        · unfold IsLetter at ha hb
          omega
      rw [lowercaseFrom, lowercaseFrom, hnext, casedNext_eq hread, casedNext_eq hrest, lowerChar_eq_of_toLower_eq hab]
      by_cases hs : a.toNat = 0x3A3
      · rw [if_pos hs, if_pos (hsigma.1 hs)]
      · rw [if_neg hs, if_neg (fun hb => hs (hsigma.2 hb))]

/-- **Small letters identify at least as much.** Texts that are equal up to the case of ASCII letters have the same
    small letters. -/
theorem lowercase_eq_of_equalIgnoringCase {a b : String} (h : equalIgnoringCase a b = true) :
    lowercase a.toList = lowercase b.toList :=
  lowercaseFrom_eq (equalIgnoringCase_iff.1 h) rfl

/-- **A clash** of two texts: they have the same small letters, but differ in more than the case of ASCII letters. -/
def Clash (a b : String) : Prop := lowercase a.toList = lowercase b.toList ∧ equalIgnoringCase a b = false

instance (a b : String) : Decidable (Clash a b) := inferInstanceAs (Decidable (_ ∧ _))

/-- Texts of ASCII never clash. -/
theorem not_clash_of_ascii {a b : String} (ha : ∀ c ∈ a.toList, c.toNat < 0x80) (hb : ∀ c ∈ b.toList, c.toNat < 0x80) :
    ¬Clash a b := by
  rintro ⟨hl, he⟩
  rw [lowercase_of_ascii ha, lowercase_of_ascii hb] at hl
  rw [equalIgnoringCase_iff.2 hl] at he
  cases he

end BinaryPatching.Text
