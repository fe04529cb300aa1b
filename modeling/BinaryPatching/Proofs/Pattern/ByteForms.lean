import BinaryPatching.Pattern.Bytes
import BinaryPatching.Proofs.Text.Numerals

/-!
# `BinaryPatching.Proofs.Pattern.ByteForms` — the written forms of byte patterns

A byte of a pattern is written with two digits, or with one that no other follows, and an open byte with two question
marks, or with one that no other follows. So a form of one character depends on what stands behind it, and two of them
may need a separator to keep them apart. A form of two characters is complete: between it and what comes next there may
be any separators or none. The written form of a pattern is made of complete forms, so that the pattern is read back
from it.

## Contents
- `IsForm`, `IsLongest`: the forms of a byte, and that no longer one stands at its place.
- `Element`, `Reads`: what a text consists of, from its start to its end.
- `readItems_eq_some_iff`, `Reads.unique`: the one reading of an accepted text.
- `Respaced`, `Reads.respaced`: other separators behind complete forms.
- `reads_written`: the written form of a pattern.
- `parse_written_respaced`: both, for the pattern that a text is read as.
-/

namespace BinaryPatching.BytePattern

open Text

/-! ## The forms of a byte -/

/-- **The forms of a byte**, and of one that is left open. -/
inductive IsForm : List Char → Option UInt8 → Prop where
  /-- Two digits. -/
  | pair {a b : Char} {high low : Nat} (ha : IsDigit 16 a high) (hb : IsDigit 16 b low) :
    IsForm [a, b] (some (UInt8.ofNat (16 * high + low)))
  /-- A single digit. -/
  | digit {a : Char} {value : Nat} (ha : IsDigit 16 a value) : IsForm [a] (some (UInt8.ofNat value))
  /-- Two question marks. -/
  | openPair : IsForm ['?', '?'] none
  /-- A single question mark. -/
  | openMark : IsForm ['?'] none

/-- **Maximal munch**: no longer form than this one stands at the front of it and the rest. -/
def IsLongest (form rest : List Char) : Prop :=
  ∀ longer item, IsForm longer item → longer <+: form ++ rest → longer.length ≤ form.length

theorem isSeparator_mark : isSeparator '?' = false := by
  rw [← Bool.not_eq_true, isSeparator_iff]
  decide

/-- No digit is a separator. -/
theorem isSeparator_of_isDigit {c : Char} {d : Nat} (h : IsDigit 16 c d) : isSeparator c = false := by
  have hsmall : ∀ d < 16, ¬(isBlank d.digitChar = true ∨ d.digitChar = ',') := by decide
  have hcapital : ∀ d < 16, ¬(isBlank d.digitChar.toUpper = true ∨ d.digitChar.toUpper = ',') := by decide
  rw [← Bool.not_eq_true, isSeparator_iff]
  obtain ⟨hd, rfl | rfl⟩ := h
  · exact hsmall d hd
  · exact hcapital d hd

theorem digit?_eq_some_iff {c : Char} {d : Nat} : digit? c = some d ↔ IsDigit 16 c d := by
  rw [← digitValue_eq_some_iff, digit?]
  constructor
  · intro h
    split at h
    · exact h
    · cases h
  · intro h
    have hdigit : isDigitOf 16 c = true := by
      rw [isDigitOf, h]
      exact decide_eq_true (digitValue_eq_some_iff.1 h).1
    rw [if_pos hdigit, h]

theorem digit?_eq_none_iff {c : Char} : digit? c = none ↔ ∀ d, ¬IsDigit 16 c d := by
  simp only [Option.eq_none_iff_forall_ne_some, ne_eq, digit?_eq_some_iff]

namespace IsForm

variable {form : List Char} {item other : Option UInt8}

/-- A form begins with a digit or a question mark, and has at most one character more. -/
theorem exists_eq (h : IsForm form item) :
    ∃ a rest, form = a :: rest ∧ isSeparator a = false ∧ rest.length ≤ 1 := by
  cases h with
  | @pair a b _ _ ha hb => exact ⟨a, [b], rfl, isSeparator_of_isDigit ha, Nat.le_refl 1⟩
  | @digit a _ ha => exact ⟨a, [], rfl, isSeparator_of_isDigit ha, Nat.zero_le 1⟩
  | openPair => exact ⟨'?', ['?'], rfl, isSeparator_mark, Nat.le_refl 1⟩
  | openMark => exact ⟨'?', [], rfl, isSeparator_mark, Nat.zero_le 1⟩

theorem ne_nil (h : IsForm form item) : form ≠ [] := by
  obtain ⟨a, rest, rfl, -, -⟩ := h.exists_eq
  exact List.cons_ne_nil a rest

theorem length_le (h : IsForm form item) : form.length ≤ 2 := by
  obtain ⟨a, rest, rfl, -, hrest⟩ := h.exists_eq
  exact Nat.succ_le_succ hrest

/-- **A form stands for one byte only.** -/
theorem unique (h : IsForm form item) (hother : IsForm form other) : item = other := by
  have hvalue {c : Char} {d e : Nat} (hd : IsDigit 16 c d) (he : IsDigit 16 c e) : d = e :=
    Option.some.inj ((digit?_eq_some_iff.2 hd).symm.trans (digit?_eq_some_iff.2 he))
  cases h with
  | pair ha hb =>
    cases hother with
    | pair ha' hb' => rw [hvalue ha ha', hvalue hb hb']
    | openPair => exact absurd ha (not_isDigit (by decide))
  | digit ha =>
    cases hother with
    | digit ha' => rw [hvalue ha ha']
    | openMark => exact absurd ha (not_isDigit (by decide))
  | openPair =>
    cases hother with
    | pair ha _ => exact absurd ha (not_isDigit (by decide))
    | openPair => rfl
  | openMark =>
    cases hother with
    | digit ha => exact absurd ha (not_isDigit (by decide))
    | openMark => rfl

end IsForm

namespace IsLongest

variable {form rest : List Char}

/-- **A form of two characters** is the longest one, whatever is behind it. -/
theorem of_length_eq_two (h : form.length = 2) : IsLongest form rest := by
  intro longer item hlonger _
  rw [h]
  exact hlonger.length_le

/-- **A form of one character** is the longest one where the character behind it makes no form together with it. -/
theorem singleton_iff {a : Char} :
    IsLongest [a] rest ↔ ∀ b, rest.head? = some b → ∀ item, ¬IsForm [a, b] item := by
  constructor
  · intro h b hb item hpair
    obtain ⟨behind, rfl⟩ := List.head?_eq_some_iff.1 hb
    have hle : 2 ≤ 1 := h [a, b] item hpair ⟨behind, rfl⟩
    omega
  · -- A longer form would have the next character and no more, since no form has three.
    intro h longer item hlonger hprefix
    obtain ⟨c, more, rfl, -, hmore⟩ := hlonger.exists_eq
    obtain ⟨rfl, hbehind⟩ := List.cons_prefix_cons.1 hprefix
    cases more with
    | nil => exact Nat.le_refl 1
    | cons b more =>
      obtain rfl : more = [] := List.eq_nil_of_length_eq_zero (by simpa using hmore)
      obtain ⟨behind, rfl⟩ := hbehind
      exact absurd hlonger (h b rfl item)

/-- All that a form hears of what is behind it is the first character. -/
theorem of_head?_eq {item : Option UInt8} {others : List Char} (hform : IsForm form item)
    (hhead : rest.head? = others.head?) (h : IsLongest form rest) : IsLongest form others := by
  obtain ⟨a, more, rfl, -, hmore⟩ := hform.exists_eq
  cases more with
  | nil =>
    rw [singleton_iff, ← hhead]
    exact singleton_iff.1 h
  | cons b more =>
    obtain rfl : more = [] := List.eq_nil_of_length_eq_zero (by simpa using hmore)
    exact of_length_eq_two rfl

end IsLongest

/-! ## Readings -/

/-- **What a written pattern consists of.** -/
inductive Element where
  /-- A separator. -/
  | separator (c : Char)
  /-- A form, with the byte it stands for. -/
  | form (text : List Char) (item : Option UInt8)
deriving Repr, DecidableEq

namespace Element

/-- The characters of an element. -/
def text : Element → List Char
  | separator c => [c]
  | form text _ => text

/-- The byte that an element stands for, if it is no separator. -/
def item? : Element → Option (Option UInt8)
  | separator _ => none
  | form _ item => some item

/-- **A complete form** has two characters. -/
def IsComplete : Element → Prop
  | separator _ => False
  | form text _ => text.length = 2

end Element

/-- The text of some elements. -/
def textOf (elements : List Element) : List Char := elements.flatMap Element.text

/-- The bytes that some elements stand for. -/
def itemsOf (elements : List Element) : List (Option UInt8) := elements.filterMap Element.item?

/-- **The reading of a text**: separators are passed over, and where there is none the longest form is taken. -/
inductive Reads : List Char → List Element → Prop where
  /-- Nothing is left. -/
  | nil : Reads [] []
  /-- A separator. -/
  | separator {c : Char} {rest : List Char} {elements : List Element} (hc : isSeparator c = true)
    (hrest : Reads rest elements) : Reads (c :: rest) (.separator c :: elements)
  /-- The longest form. -/
  | form {form rest : List Char} {item : Option UInt8} {elements : List Element} (hform : IsForm form item)
    (hlongest : IsLongest form rest) (hrest : Reads rest elements) :
    Reads (form ++ rest) (.form form item :: elements)

/-! ## What is read -/

/-- **A separator** is passed over. -/
theorem readItems_separator {c : Char} (hc : isSeparator c = true) (rest : List Char) :
    readItems (c :: rest) = readItems rest := by
  have hmark : c ≠ '?' := by
    rintro rfl
    rw [isSeparator_mark] at hc
    cases hc
  rw [readItems]
  · exact if_pos hc
  · exact fun _ heq => absurd heq hmark
  · exact hmark

/-- **Two digits** make a byte. -/
theorem readItems_pair {a b : Char} {high low : Nat} (ha : IsDigit 16 a high) (hb : IsDigit 16 b low)
    (rest : List Char) :
    readItems (a :: b :: rest) = (readItems rest).map (some (UInt8.ofNat (16 * high + low)) :: ·) := by
  have hmark : a ≠ '?' := ha.ne (by decide)
  rw [readItems, isSeparator_of_isDigit ha, if_neg Bool.false_ne_true, digit?_eq_some_iff.2 ha]
  · dsimp only
    rw [digit?_eq_some_iff.2 hb]
  · exact fun _ heq => absurd heq hmark
  · exact hmark

/-- **A single digit** makes one where no other follows. -/
theorem readItems_single {a : Char} {value : Nat} (ha : IsDigit 16 a value) {rest : List Char}
    (hnext : ∀ b, rest.head? = some b → digit? b = none) :
    readItems (a :: rest) = (readItems rest).map (some (UInt8.ofNat value) :: ·) := by
  have hmark : a ≠ '?' := ha.ne (by decide)
  rw [readItems, isSeparator_of_isDigit ha, if_neg Bool.false_ne_true, digit?_eq_some_iff.2 ha]
  · cases rest with
    | nil => rfl
    | cons b behind =>
      dsimp only
      rw [hnext b rfl]
  · exact fun _ heq => absurd heq hmark
  · exact hmark

/-- **The longest form** is taken, and then what is behind it. -/
theorem readItems_form {form rest : List Char} {item : Option UInt8} (hform : IsForm form item)
    (hlongest : IsLongest form rest) : readItems (form ++ rest) = (readItems rest).map (item :: ·) := by
  cases hform with
  | pair ha hb => exact readItems_pair ha hb rest
  | digit ha =>
    refine readItems_single ha fun b hb => ?_
    rw [digit?_eq_none_iff]
    intro low hdigit
    exact IsLongest.singleton_iff.1 hlongest b hb _ (.pair ha hdigit)
  | openPair => rfl
  | openMark =>
    show readItems ('?' :: rest) = _
    rw [readItems]
    rintro behind rfl
    exact IsLongest.singleton_iff.1 hlongest '?' rfl none .openPair

/-- **A reading gives the bytes** that are read. -/
theorem Reads.readItems_eq {cs : List Char} {elements : List Element} (h : Reads cs elements) :
    readItems cs = some (itemsOf elements) := by
  induction h with
  | nil => rfl
  | separator hc _ ih => rw [readItems_separator hc, ih]; rfl
  | form hform hlongest _ ih => rw [readItems_form hform hlongest, ih]; rfl

/-- The longest form in front of a text that has a reading. -/
theorem exists_reads_form {form rest : List Char} {item : Option UInt8} {items : List (Option UInt8)}
    (hform : IsForm form item) (hlongest : IsLongest form rest)
    (hrest : ∀ {others}, readItems rest = some others → ∃ elements, Reads rest elements ∧ itemsOf elements = others)
    (h : (readItems rest).map (item :: ·) = some items) :
    ∃ elements, Reads (form ++ rest) elements ∧ itemsOf elements = items := by
  obtain ⟨others, hothers, rfl⟩ := Option.map_eq_some_iff.1 h
  obtain ⟨elements, hreads, rfl⟩ := hrest hothers
  exact ⟨.form form item :: elements, .form hform hlongest hreads, rfl⟩

/-- **Whatever is read has a reading.** -/
theorem exists_reads {cs : List Char} {items : List (Option UInt8)} (h : readItems cs = some items) :
    ∃ elements, Reads cs elements ∧ itemsOf elements = items := by
  -- The cases are those of the reader. Where it takes one character, the next one is known to make no form with it.
  fun_induction readItems cs generalizing items with
  | case1 =>
    cases h
    exact ⟨[], .nil, rfl⟩
  | case2 rest ih => exact exists_reads_form .openPair (.of_length_eq_two rfl) ih h
  | case3 rest hnext ih =>
    refine exists_reads_form .openMark (IsLongest.singleton_iff.2 ?_) ih h
    intro b hb item hpair
    obtain ⟨behind, rfl⟩ := List.head?_eq_some_iff.1 hb
    cases hpair with
    | pair ha _ => exact not_isDigit (by decide) ha
    | openPair => exact hnext behind rfl
  | case4 c rest _ _ hc ih =>
    obtain ⟨elements, hreads, hitems⟩ := ih h
    exact ⟨.separator c :: elements, .separator hc hreads, hitems⟩
  | case5 => cases h
  | case6 c _ _ value hvalue =>
    cases h
    have hlongest : IsLongest [c] [] := IsLongest.singleton_iff.2 fun b hb => nomatch hb
    exact ⟨[.form [c] _], .form (.digit (digit?_eq_some_iff.1 hvalue)) hlongest .nil, rfl⟩
  | case7 c _ _ high hhigh d behind low hlow _ ih =>
    have hform := IsForm.pair (digit?_eq_some_iff.1 hhigh) (digit?_eq_some_iff.1 hlow)
    exact exists_reads_form hform (.of_length_eq_two rfl) ih h
  | case8 c hmark _ value hvalue d behind hnone _ ih =>
    refine exists_reads_form (.digit (digit?_eq_some_iff.1 hvalue)) (IsLongest.singleton_iff.2 ?_) ih h
    intro b hb item hpair
    cases hb
    cases hpair with
    | pair _ hlow => exact digit?_eq_none_iff.1 hnone _ hlow
    | openPair => exact hmark rfl

/-- **What is read** are the bytes of a reading. -/
theorem readItems_eq_some_iff {cs : List Char} {items : List (Option UInt8)} :
    readItems cs = some items ↔ ∃ elements, Reads cs elements ∧ itemsOf elements = items := by
  constructor
  · exact exists_reads
  · rintro ⟨elements, hreads, rfl⟩
    exact hreads.readItems_eq

/-! ## One reading only -/

/-- The text of a reading is the text that is read. -/
theorem Reads.textOf_eq {cs : List Char} {elements : List Element} (h : Reads cs elements) : textOf elements = cs := by
  induction h with
  | nil => rfl
  | @separator c _ _ _ _ ih => exact congrArg (c :: ·) ih
  | @form form _ _ _ _ _ _ ih => exact congrArg (form ++ ·) ih

/-- Two longest forms at one place are the same. -/
theorem IsLongest.eq_of_append_eq {form rest other others : List Char} {item second : Option UInt8}
    (hform : IsForm form item) (hother : IsForm other second) (hlongest : IsLongest form rest)
    (hlongestOther : IsLongest other others) (heq : form ++ rest = other ++ others) : form = other ∧ rest = others := by
  have hle : other.length ≤ form.length := hlongest other second hother ⟨others, heq.symm⟩
  have hge : form.length ≤ other.length := hlongestOther form item hform ⟨rest, heq⟩
  exact List.append_inj heq (Nat.le_antisymm hge hle)

namespace Reads

variable {cs rest : List Char} {elements : List Element}

/-- What is read where nothing is left. -/
theorem of_nil (h : Reads [] elements) : elements = [] := by
  generalize hcs : ([] : List Char) = cs at h
  cases h with
  | nil => rfl
  | separator => cases hcs
  | form hform => exact absurd (List.append_eq_nil_iff.1 hcs.symm).1 hform.ne_nil

/-- What is read where a separator stands. -/
theorem of_separator {c : Char} (hc : isSeparator c = true) (h : Reads (c :: rest) elements) :
    ∃ others, elements = .separator c :: others ∧ Reads rest others := by
  generalize hcs : c :: rest = cs at h
  cases h with
  | nil => cases hcs
  | separator _ hrest =>
    cases hcs
    exact ⟨_, rfl, hrest⟩
  | form hform =>
    obtain ⟨a, more, rfl, ha, -⟩ := hform.exists_eq
    cases hcs
    rw [hc] at ha
    cases ha

/-- What is read where a form stands that is the longest one. -/
theorem of_form {form : List Char} {item : Option UInt8} (hform : IsForm form item) (hlongest : IsLongest form rest)
    (h : Reads (form ++ rest) elements) : ∃ others, elements = .form form item :: others ∧ Reads rest others := by
  generalize hcs : form ++ rest = cs at h
  cases h with
  | nil => exact absurd (List.append_eq_nil_iff.1 hcs).1 hform.ne_nil
  | separator hc =>
    obtain ⟨a, more, rfl, ha, -⟩ := hform.exists_eq
    cases hcs
    rw [hc] at ha
    cases ha
  | form hother hlongestOther hrest =>
    obtain ⟨rfl, rfl⟩ := IsLongest.eq_of_append_eq hform hother hlongest hlongestOther hcs
    obtain rfl := hform.unique hother
    exact ⟨_, rfl, hrest⟩

/-- **A text has one reading only.** -/
theorem unique {others : List Element} (h : Reads cs elements) (hothers : Reads cs others) : others = elements := by
  induction h generalizing others with
  | nil => exact hothers.of_nil
  | separator hc _ ih =>
    obtain ⟨behind, rfl, hbehind⟩ := hothers.of_separator hc
    rw [ih hbehind]
  | form hform hlongest _ ih =>
    obtain ⟨behind, rfl, hbehind⟩ := hothers.of_form hform hlongest
    rw [ih hbehind]

end Reads

/-! ## Other separators -/

/-- Some separators. -/
def separators (gap : List Char) : List Element := gap.map .separator

/-- **Other separators behind complete forms**: more, fewer or none at all, up to the next form, which may be complete
as well or not. All else is kept. -/
inductive Respaced : List Element → List Element → Prop where
  /-- Nothing is left. -/
  | nil : Respaced [] []
  /-- An element is kept. -/
  | keep {element : Element} {before after : List Element} (h : Respaced before after) :
    Respaced (element :: before) (element :: after)
  /-- What stands between a complete form and the next one is replaced. -/
  | gap {first second : Element} {gap other : List Char} {before after : List Element} (hfirst : first.IsComplete)
    (hother : ∀ c ∈ other, isSeparator c = true) (h : Respaced (second :: before) (second :: after)) :
    Respaced (first :: (separators gap ++ second :: before)) (first :: (separators other ++ second :: after))

theorem Respaced.head?_eq {elements others : List Element} (h : Respaced elements others) :
    elements.head? = others.head? := by
  cases h <;> rfl

/-- Separators stand for no bytes. -/
theorem itemsOf_separators_append (gap : List Char) (elements : List Element) :
    itemsOf (separators gap ++ elements) = itemsOf elements := by
  induction gap with
  | nil => rfl
  | cons c gap ih => exact ih

theorem textOf_separators_append (gap : List Char) (elements : List Element) :
    textOf (separators gap ++ elements) = gap ++ textOf elements := by
  induction gap with
  | nil => rfl
  | cons c gap ih => exact congrArg (c :: ·) ih

/-- **The same bytes** are meant whatever the separators are. -/
theorem Respaced.itemsOf_eq {elements others : List Element} (h : Respaced elements others) :
    itemsOf others = itemsOf elements := by
  induction h with
  | nil => rfl
  | @keep element _ _ _ ih =>
    cases element with
    | separator c => exact ih
    | form text item => exact congrArg (item :: ·) ih
  | @gap first second _ _ before after hfirst _ _ ih =>
    cases first with
    | separator => exact absurd hfirst id
    | form text item =>
      show item :: itemsOf (_ ++ second :: after) = item :: itemsOf (_ ++ second :: before)
      rw [itemsOf_separators_append, itemsOf_separators_append, ih]

namespace Reads

variable {cs rest : List Char} {elements : List Element}

/-- A text begins as its first element does. -/
theorem head?_eq (h : Reads cs elements) : cs.head? = elements.head?.bind (·.text.head?) := by
  cases h with
  | nil => rfl
  | separator => rfl
  | form hform =>
    obtain ⟨a, more, rfl, -, -⟩ := hform.exists_eq
    rfl

theorem separators_append {gap : List Char} (hgap : ∀ c ∈ gap, isSeparator c = true) (h : Reads rest elements) :
    Reads (gap ++ rest) (separators gap ++ elements) := by
  induction gap with
  | nil => exact h
  | cons c gap ih =>
    exact .separator (hgap c List.mem_cons_self) (ih fun d hd => hgap d (List.mem_cons_of_mem c hd))

/-- What is read behind separators. -/
theorem exists_of_separators_append {gap : List Char} (h : Reads cs (separators gap ++ elements)) :
    ∃ rest, Reads rest elements := by
  induction gap generalizing cs with
  | nil => exact ⟨cs, h⟩
  | cons c gap ih =>
    cases h with
    | separator _ hrest => exact ih hrest

/-- **Other separators** behind complete forms are passed over as well. -/
theorem respaced {others : List Element} (h : Reads cs elements) (hrespaced : Respaced elements others) :
    Reads (textOf others) others := by
  induction hrespaced generalizing cs with
  | nil => exact .nil
  | @keep element before after hrespaced ih =>
    cases h with
    | separator hc hrest => exact .separator hc (ih hrest)
    | @form form rest item _ hform hlongest hrest =>
      -- What is behind the form begins as before, and the form hears of no more than that.
      have hhead : rest.head? = (textOf after).head? := by
        rw [hrest.head?_eq, (ih hrest).head?_eq, hrespaced.head?_eq]
      exact .form hform (hlongest.of_head?_eq hform hhead) (ih hrest)
  | @gap first second gap other before after hfirst hother _ ih =>
    cases h with
    | separator => exact absurd hfirst id
    | form hform _ hrest =>
      obtain ⟨behind, hbehind⟩ := hrest.exists_of_separators_append
      have hafter : Reads (textOf (separators other ++ second :: after)) (separators other ++ second :: after) := by
        rw [textOf_separators_append]
        exact (ih hbehind).separators_append hother
      exact .form hform (.of_length_eq_two hfirst) hafter

end Reads

/-! ## The written form -/

/-- **An item is written** as a complete form. -/
theorem isForm_itemText (item : Option UInt8) :
    IsForm (itemText item).toList item ∧ (itemText item).toList.length = 2 := by
  have hdigit {n : Nat} (hn : n < 16) : IsDigit 16 (Bytes.hexDigit n) n :=
    digitValue_eq_some_iff.1 (Bytes.digitValue_hexDigit n hn)
  cases item with
  | none => exact ⟨.openPair, rfl⟩
  | some b =>
    have hlt := b.toNat_lt
    have htext : (itemText (some b)).toList = [Bytes.hexDigit (b.toNat / 16), Bytes.hexDigit (b.toNat % 16)] := by
      rw [itemText, Bytes.toList_hex]
      rfl
    have hpair := IsForm.pair (hdigit (n := b.toNat / 16) (by omega)) (hdigit (n := b.toNat % 16) (by omega))
    rw [Nat.div_add_mod, UInt8.ofNat_toNat] at hpair
    rw [htext]
    exact ⟨hpair, rfl⟩

/-- **The written form of some items** is read as them. -/
theorem reads_written (items : List (Option UInt8)) :
    ∃ elements, Reads (" ".intercalate (items.map itemText)).toList elements ∧ itemsOf elements = items := by
  induction items with
  | nil => exact ⟨[], .nil, rfl⟩
  | cons item items ih =>
    obtain ⟨hform, hlength⟩ := isForm_itemText item
    cases items with
    | nil =>
      rw [List.map_singleton, String.intercalate_singleton, ← List.append_nil (itemText item).toList]
      exact ⟨[.form _ item], .form hform (.of_length_eq_two hlength) .nil, rfl⟩
    | cons next items =>
      obtain ⟨elements, hreads, hitems⟩ := ih
      have hblank : isSeparator ' ' = true := isSeparator_iff.2 (.inl rfl)
      rw [List.map_cons, List.map_cons, String.intercalate_cons_cons, String.toList_append, String.toList_append,
        List.append_assoc]
      refine ⟨.form _ item :: .separator ' ' :: elements,
        .form hform (.of_length_eq_two hlength) (.separator hblank hreads), ?_⟩
      exact congrArg (item :: ·) hitems

/-- **A text is accepted** if it has a reading with a byte in it. -/
theorem parse_eq_ok_iff {text : String} {p : BytePattern} :
    parse text = .ok p ↔ p.items ≠ [] ∧ ∃ elements, Reads text.toList elements ∧ itemsOf elements = p.items := by
  rw [← readItems_eq_some_iff, parse]
  cases readItems text.toList with
  | none => simp
  | some items =>
    cases items with
    | nil => simp [eq_comm]
    | cons item items =>
      obtain ⟨others⟩ := p
      constructor
      · intro h
        cases h
        exact ⟨List.cons_ne_nil item items, rfl⟩
      · rintro ⟨-, h⟩
        cases h
        rfl

/-- **The written form of a pattern and the separators in it.** Every pattern that is not empty is read back from its
written form. A text that is accepted has one reading only, whose bytes are those of its pattern, and with other
separators behind its forms of two characters, or with none, it is accepted as the same pattern. -/
theorem parse_written_respaced (p : BytePattern) :
    (parse p.written = .ok p ↔ p.items ≠ []) ∧
      ∀ text, parse text = .ok p →
        ∃ elements, Reads text.toList elements ∧ (∀ others, Reads text.toList others → others = elements) ∧
          textOf elements = text.toList ∧ itemsOf elements = p.items ∧
          ∀ others, Respaced elements others → parse (String.ofList (textOf others)) = .ok p := by
  constructor
  · rw [parse_eq_ok_iff]
    exact and_iff_left (reads_written p.items)
  · intro text htext
    obtain ⟨hitems, elements, hreads, heq⟩ := parse_eq_ok_iff.1 htext
    refine ⟨elements, hreads, fun others hothers => hreads.unique hothers, hreads.textOf_eq, heq, ?_⟩
    intro others hrespaced
    have hothers : Reads (String.ofList (textOf others)).toList others := by
      rw [String.toList_ofList]
      exact hreads.respaced hrespaced
    exact parse_eq_ok_iff.2 ⟨hitems, others, hothers, hrespaced.itemsOf_eq.trans heq⟩

/-- Behind a form of one character a separator may be needed: without it the two forms here are a single one. -/
example : (parse "1 2").toOption = some ⟨[some 1, some 2]⟩ ∧ (parse "12").toOption = some ⟨[some 0x12]⟩ := by
  decide +kernel

/-- A pattern with an open byte. -/
def unevenPattern : BytePattern := ⟨[some 0x0A, some 0x12, none, some 0x34]⟩

/-- The elements of a text for it that begins with a single digit, with some separators on either side of its open
byte. -/
def unevenElements (left right : List Char) : List Element :=
  .form ['A'] (some 0x0A) :: .separator ',' :: .form ['1', '2'] (some 0x12) ::
    (separators left ++ .form ['?', '?'] none :: (separators right ++ [.form ['3', '4'] (some 0x34)]))

theorem reads_unevenElements : Reads (textOf (unevenElements [' '] [])) (unevenElements [' '] []) := by
  have hcomma : isSeparator ',' = true := isSeparator_iff.2 (.inr rfl)
  have hblank : isSeparator ' ' = true := isSeparator_iff.2 (.inl rfl)
  -- The comma keeps the single digit from being the first of a pair.
  have hsingle (rest : List Char) : IsLongest ['A'] (',' :: rest) := by
    rw [IsLongest.singleton_iff]
    intro b hb item hpair
    cases hb
    cases hpair with
    | pair _ hdigit =>
      rw [isSeparator_of_isDigit hdigit] at hcomma
      cases hcomma
  have hpair {a b : Char} (high low : Nat) (ha : IsDigit 16 a high) (hb : IsDigit 16 b low) {rest : List Char}
      {elements : List Element} (hrest : Reads rest elements) :
      Reads (a :: b :: rest) (.form [a, b] (some (UInt8.ofNat (16 * high + low))) :: elements) :=
    .form (.pair ha hb) (.of_length_eq_two rfl) hrest
  have hopen : Reads ['?', '?', '3', '4'] [.form ['?', '?'] none, .form ['3', '4'] (some 0x34)] :=
    .form .openPair (.of_length_eq_two rfl) (hpair 3 4 (by decide) (by decide) .nil)
  have hbehind : Reads ['1', '2', ' ', '?', '?', '3', '4'] _ :=
    hpair 1 2 (by decide) (by decide) (.separator hblank hopen)
  have hdigit : IsDigit 16 'A' 10 := by decide
  exact .form (.digit hdigit) (hsingle _) (.separator hcomma hbehind)

/-- **One pattern and its texts**: the blank before the open byte is gone, and other separators stand behind it. -/
theorem parse_written_respaced_unevenPattern :
    parse "0A 12 ?? 34" = .ok unevenPattern ∧ parse "A,12 ??34" = .ok unevenPattern ∧
      parse "A,12??\t, 34" = .ok unevenPattern := by
  have hwritten : unevenPattern.written = "0A 12 ?? 34" := by decide +kernel
  have htext : String.ofList (textOf (unevenElements [' '] [])) = "A,12 ??34" := by decide +kernel
  have hother : String.ofList (textOf (unevenElements [] ['\t', ',', ' '])) = "A,12??\t, 34" := by decide +kernel
  have hitems : unevenPattern.items ≠ [] := List.cons_ne_nil _ _
  have hreads : Reads "A,12 ??34".toList (unevenElements [' '] []) := by
    rw [← htext, String.toList_ofList]
    exact reads_unevenElements
  have hgap : ∀ c ∈ ['\t', ',', ' '], isSeparator c = true := by
    intro c hc
    rw [isSeparator_iff]
    simp only [List.mem_cons, List.not_mem_nil, or_false] at hc
    rcases hc with rfl | rfl | rfl
    · exact .inl rfl
    · exact .inr rfl
    · exact .inl rfl
  have hrespaced : Respaced (unevenElements [' '] []) (unevenElements [] ['\t', ',', ' ']) :=
    .keep (.keep (.gap rfl (fun _ hc => nomatch hc) (.gap rfl hgap (.keep .nil))))
  obtain ⟨hparse, haccepted⟩ := parse_written_respaced unevenPattern
  have hfirst : parse "A,12 ??34" = .ok unevenPattern := parse_eq_ok_iff.2 ⟨hitems, _, hreads, rfl⟩
  obtain ⟨elements, _, hunique, _, _, hsame⟩ := haccepted _ hfirst
  obtain rfl := hunique _ hreads
  rw [hwritten] at hparse
  exact ⟨hparse.2 hitems, hfirst, hother ▸ hsame _ hrespaced⟩

end BinaryPatching.BytePattern
