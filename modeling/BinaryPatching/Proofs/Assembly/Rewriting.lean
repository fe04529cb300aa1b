import BinaryPatching.Proofs.Assembly.Padding
import BinaryPatching.Text.Split
import Mathlib.Data.List.Forall2

/-!
# `BinaryPatching.Proofs.Assembly.Rewriting` — what becomes of the lines of a fragment

Behind the header of a source stand the lines of the fragment, one for one. A line that names an address has an expression
in its place, the distance from the label at the start of the fragment, and the value of the expression is the low word of
the address. So a line goes where it says if its address is a word. For an address above all words it goes elsewhere,
unless it does not even fit 63 bits, for then the line is left as it is.

## Contents
- `expressionValue?`, `distanceText`, `expressionValue?_relativeAddress`: the value of an expression.
- `Emitted`, `emitted_relativeLine`: what becomes of every line.
- `KeepsAddress`, `NamesFar`, `keepsAddress_relativeLine_iff`: which lines go where they say.
- `sourceHeader`, `splitAt_buildSource`: the lines of a source.
- `buildSource_rewriting`: the source of a fragment and its padding.
-/

namespace BinaryPatching

open Text

/-! ## Expressions -/

/-- **The value of an expression** that adds a number to a label or takes it away, when the label has an address. -/
def expressionValue? (label : List Char) (address : Int) (text : List Char) : Option Int :=
  match splitAt (· == ' ') text with
  | [name, sign, number] =>
    if name = label then
      match sign with
      | ['+'] => (parseNumber (String.ofList number)).map (address + ·)
      | ['-'] => (parseNumber (String.ofList number)).map (address - ·)
      | _ => none
    else none
  | _ => none

/-- The literal of a number, with capital digits. -/
def capitalLiteral (n : Nat) : List Char := '0' :: 'x' :: (Nat.toDigits 16 n).map Char.toUpper

/-- What holds of its mark and all sixteen digits holds of all of a literal. -/
theorem forall_mem_capitalLiteral {p : Char → Prop} (hmark : p 'x') (hdigits : ∀ d < 16, p d.digitChar.toUpper) (n : Nat) :
    ∀ c ∈ capitalLiteral n, p c := by
  intro c hc
  rcases List.mem_cons.1 hc with rfl | hc
  · exact hdigits 0 (by decide)
  rcases List.mem_cons.1 hc with rfl | hc
  · exact hmark
  · exact forall_mem_map_toDigits hdigits n c hc

theorem parseNumber_capitalLiteral {n : Nat} (hn : n < 0x8000000000000000) :
    parseNumber (String.ofList (capitalLiteral n)) = some (n : Int) := by
  refine parseNumber_of_readDigits ?_ ?_ (readDigits_map_toDigits digitValue_toUpper_digitChar n) hn
  · exact fun hnil => toDigits_ne_nil n (List.map_eq_nil_iff.1 hnil)
  · exact forall_mem_capitalLiteral (p := (isBlank · = false)) rfl (by decide) n

/-- An expression has three parts. -/
theorem splitAt_expression (sign : Char) (hsign : sign ≠ ' ') (n : Nat) :
    splitAt (· == ' ') (originLabel.toList ++ ' ' :: sign :: ' ' :: capitalLiteral n) =
      [originLabel.toList, [sign], capitalLiteral n] := by
  have hlabel : splitAt (· == ' ') originLabel.toList = [originLabel.toList] := by decide
  have hnumber : splitAt (· == ' ') (capitalLiteral n) = [capitalLiteral n] :=
    splitAt_of_clear (forall_mem_capitalLiteral (p := fun c => (c == ' ') = false) rfl (by decide) n)
  have hone : splitAt (· == ' ') [sign] = [[sign]] := splitAt_of_clear (by simpa using hsign)
  rw [splitAt_append rfl, hlabel, ← List.singleton_append (l := ' ' :: capitalLiteral n), splitAt_append rfl, hone, hnumber]
  rfl

/-- The expression for a distance from the label at the start of the fragment, ahead of it or behind. -/
def distanceText (distance : Int) : List Char :=
  originLabel.toList ++ ' ' :: (if 0 ≤ distance then '+' else '-') :: ' ' :: capitalLiteral distance.natAbs

/-- **The value of a distance** is what it says: the number is added to the address of the label or taken away. -/
theorem expressionValue?_distanceText (address : Int) {distance : Int} (h : distance.natAbs < 0x8000000000000000) :
    expressionValue? originLabel.toList address (distanceText distance) = some (address + distance) := by
  have hsign : (if 0 ≤ distance then '+' else '-') ≠ ' ' := by split <;> decide
  rw [expressionValue?, distanceText, splitAt_expression _ hsign]
  dsimp only
  rw [if_pos rfl, parseNumber_capitalLiteral h]
  by_cases hle : 0 ≤ distance
  · rw [if_pos hle]
    show some (address + (distance.natAbs : Int)) = _
    rw [Int.natAbs_of_nonneg hle]
  · rw [if_neg hle]
    show some (address - (distance.natAbs : Int)) = _
    congr 1
    omega

/-- The text of an address relative to the start of the fragment. -/
theorem toList_relativeAddress (origin target : UInt32) :
    (relativeAddress origin target).toList = distanceText (target.toNat - origin.toNat) := by
  have hliteral (n : Nat) : capitalLiteral n = ['0', 'x'] ++ (upperHex n).toList := by
    rw [upperHex, String.toList_ofList]
    rfl
  unfold relativeAddress distanceText
  by_cases hle : origin ≤ target
  · have hdistance := UInt32.toNat_sub_of_le target origin hle
    rw [UInt32.le_iff_toNat_le] at hle
    have hnumber : ((target.toNat : Int) - origin.toNat).natAbs = (target - origin).toNat := by omega
    rw [if_pos (UInt32.le_iff_toNat_le.2 hle), if_pos (by omega), hnumber, String.toList_append, String.toList_append,
      List.append_assoc, hliteral]
    rfl
  · have hlt := UInt32.le_of_lt (UInt32.not_le.1 hle)
    have hdistance := UInt32.toNat_sub_of_le origin target hlt
    have hless := UInt32.lt_iff_toNat_lt.1 (UInt32.not_le.1 hle)
    have hnumber : ((target.toNat : Int) - origin.toNat).natAbs = (origin - target).toNat := by omega
    rw [if_neg hle, if_neg (by omega), hnumber, String.toList_append, String.toList_append, List.append_assoc, hliteral]
    rfl

/-- **The value of a relative address** is the address, when the label stands for the start of the fragment. -/
theorem expressionValue?_relativeAddress (origin target : UInt32) :
    expressionValue? originLabel.toList origin.toNat (relativeAddress origin target).toList = some (target.toNat : Int) := by
  have hfits : ((target.toNat : Int) - origin.toNat).natAbs < 0x8000000000000000 := by
    have htarget := target.toNat_lt
    have horigin := origin.toNat_lt
    omega
  rw [toList_relativeAddress, expressionValue?_distanceText _ hfits]
  congr 1
  omega

/-! ## Lines -/

/-- **What becomes of a line.** -/
inductive Emitted (origin : UInt32) : List Char → List Char → Prop where
  /-- A line that names no address is left as it is, and so is one whose address does not fit 63 bits. -/
  | verbatim {line : List Char} (hnone : ∀ before t, NamesAddress line before t → 0x8000000000000000 ≤ t) :
    Emitted origin line line
  /-- Any other line has an expression for the address, whose value is the low word of it. -/
  | relative {line before expression : List Char} {t : Nat} (hnamed : NamesAddress line before t)
    (ht : t < 0x8000000000000000)
    (hvalue : expressionValue? originLabel.toList origin.toNat expression = some ((t % 0x100000000 : Nat) : Int)) :
    Emitted origin line (before ++ expression)

theorem toList_relativeLine_of_none {origin : UInt32} {line : List Char} (h : addressLine? line = none) :
    (relativeLine origin line).toList = line := by
  rw [relativeLine, h, String.toList_ofList]

theorem toList_relativeLine_of_some {origin : UInt32} {line : List Char} {l : AddressLine} (h : addressLine? line = some l) :
    (relativeLine origin line).toList = l.before ++ (relativeAddress origin l.target).toList := by
  unfold relativeLine
  rw [h]
  dsimp only
  rw [String.toList_append, String.toList_ofList]

theorem emitted_relativeLine (origin : UInt32) (line : List Char) : Emitted origin line (relativeLine origin line).toList := by
  cases hread : addressLine? line with
  | none =>
    rw [toList_relativeLine_of_none hread]
    refine .verbatim fun before t hnamed => Nat.not_lt.1 fun ht => ?_
    rw [hnamed.addressLine?_eq ht] at hread
    cases hread
  | some l =>
    obtain ⟨t, hnamed, ht, htarget⟩ := addressLine?_eq_some_iff.1 hread
    rw [toList_relativeLine_of_some hread]
    refine .relative hnamed ht ?_
    rw [expressionValue?_relativeAddress, htarget, UInt32.toNat_ofNat']

/-- A line **keeps its address** if it is left as it is, or the address is a word and has an expression of that value in
its place. -/
def KeepsAddress (origin : UInt32) (line emitted : List Char) : Prop :=
  emitted = line ∨ ∃ before t expression, NamesAddress line before t ∧ t < 0x100000000 ∧ emitted = before ++ expression ∧
    expressionValue? originLabel.toList origin.toNat expression = some (t : Int)

/-- A line names a place **far** off if its address is above all words, but still fits 63 bits. -/
def NamesFar (line : List Char) : Prop :=
  ∃ before t, NamesAddress line before t ∧ 0x100000000 ≤ t ∧ t < 0x8000000000000000

/-- No line with an expression in it is the line itself. -/
theorem append_relativeAddress_ne {line before : List Char} {t : Nat} (h : NamesAddress line before t)
    (origin target : UInt32) : before ++ (relativeAddress origin target).toList ≠ line := by
  obtain ⟨mark, number, hmark, hline, hnumber⟩ := h.exists_number
  intro heq
  rw [hline] at heq
  have hsame := congrArg List.head? (List.append_cancel_left heq)
  have hletter : (relativeAddress origin target).toList.head? = some 'p' := by
    rw [toList_relativeAddress]
    rfl
  rw [hletter, List.head?_append, hnumber.head?] at hsame
  rcases hmark with rfl | rfl
  · exact absurd hsame (by decide)
  · exact absurd hsame (by decide)

/-- **Which lines keep their address**: all but those that name a place far off. -/
theorem keepsAddress_relativeLine_iff (origin : UInt32) (line : List Char) :
    KeepsAddress origin line (relativeLine origin line).toList ↔ ¬NamesFar line := by
  constructor
  · rintro hkeeps ⟨before, t, hnamed, hfar, ht⟩
    rw [toList_relativeLine_of_some (hnamed.addressLine?_eq ht)] at hkeeps
    rcases hkeeps with heq | ⟨before', t', _, hnamed', ht', _, _⟩
    · exact append_relativeAddress_ne hnamed origin _ heq
    · obtain ⟨_, hsame⟩ := hnamed.unique ht hnamed' (by omega)
      omega
  · intro hnear
    cases hread : addressLine? line with
    | none => exact .inl (toList_relativeLine_of_none hread)
    | some l =>
      obtain ⟨t, hnamed, ht, htarget⟩ := addressLine?_eq_some_iff.1 hread
      have hword : t < 0x100000000 := Nat.not_le.1 fun hfar => hnear ⟨l.before, t, hnamed, hfar, ht⟩
      refine .inr ⟨l.before, t, _, hnamed, hword, toList_relativeLine_of_some hread, ?_⟩
      rw [expressionValue?_relativeAddress, htarget, UInt32.toNat_ofNat', Nat.mod_eq_of_lt hword]

/-! ## The whole source -/

/-- The lines in front of those of the fragment. -/
def sourceHeader (codeType : CodeType) (padding : UInt32) : List String :=
  ["    AREA |.text|, CODE, READONLY", "    " ++ codeType.directive] ++
    (if padding = 0 then [] else ["    SPACE " ++ decimal padding.toNat]) ++ [originLabel]

/-- The text of a source, line by line. -/
theorem toList_text_buildSource (origin : UInt32) (codeType : CodeType) (body : String) :
    (buildSource origin codeType body).text.toList =
      ((sourceHeader codeType (buildSource origin codeType body).padding).map String.toList ++
          (Text.lines body.toList).map (fun line => (relativeLine origin line).toList) ++
        ["    END".toList]).flatMap (· ++ ['\n']) := by
  generalize hp : (buildSource origin codeType body).padding = p
  have htext : (buildSource origin codeType body).text =
      "    AREA |.text|, CODE, READONLY\n    " ++ codeType.directive ++ "\n"
        ++ (if p = 0 then "" else "    SPACE " ++ decimal p.toNat ++ "\n") ++ originLabel ++ "\n"
        ++ String.join ((Text.lines body.toList).map fun line => relativeLine origin line ++ "\n") ++ "    END\n" := by
    rw [← hp]
    rfl
  have hlines : (String.join ((Text.lines body.toList).map fun line => relativeLine origin line ++ "\n")).toList =
      ((Text.lines body.toList).map fun line => (relativeLine origin line).toList).flatMap (· ++ ['\n']) := by
    rw [String.toList_join, List.flatMap_map, List.flatMap_map]
    simp only [String.toList_append]
    rfl
  rw [htext, sourceHeader]
  simp only [String.toList_append, hlines, List.map_append, List.flatMap_append]
  split <;> simp

/-- A line feed stands in none of the lines of a source. -/
theorem not_mem_of_mem_sourceHeader {codeType : CodeType} {padding : UInt32} {line : String}
    (h : line ∈ sourceHeader codeType padding) : '\n' ∉ line.toList := by
  have hdigits : '\n' ∉ ("    SPACE " ++ decimal padding.toNat).toList := by
    rw [String.toList_append, toList_decimal, List.mem_append]
    rintro (hword | hdigit)
    · revert hword
      decide
    · cases Nat.isDigit_of_mem_toDigits (by decide) (by decide) hdigit
  have hdirective : '\n' ∉ ("    " ++ codeType.directive).toList := by
    cases codeType <;> decide
  rcases List.mem_append.1 h with h | hlabel
  · rcases List.mem_append.1 h with hfirst | hspace
    · simp only [List.mem_cons, List.not_mem_nil, or_false] at hfirst
      rcases hfirst with rfl | rfl
      · decide
      · exact hdirective
    · split at hspace
      · cases hspace
      · exact List.mem_singleton.1 hspace ▸ hdigits
  · rw [List.mem_singleton.1 hlabel]
    decide

theorem not_mem_distanceText (distance : Int) : '\n' ∉ distanceText distance := by
  have hlabel : '\n' ∉ originLabel.toList := by decide
  have hliteral : '\n' ∉ capitalLiteral distance.natAbs := fun hmem =>
    forall_mem_capitalLiteral (p := (· ≠ '\n')) (by decide) (by decide) _ '\n' hmem rfl
  unfold distanceText
  split <;> simp [hlabel, hliteral]

theorem not_mem_relativeLine {line : List Char} (h : '\n' ∉ line) (origin : UInt32) :
    '\n' ∉ (relativeLine origin line).toList := by
  cases hread : addressLine? line with
  | none => rwa [toList_relativeLine_of_none hread]
  | some l =>
    obtain ⟨t, hnamed, _, _⟩ := addressLine?_eq_some_iff.1 hread
    obtain ⟨_, _, _, hline, _⟩ := hnamed.exists_number
    have hbefore : '\n' ∉ l.before := fun hmem => h (hline ▸ List.mem_append_left _ hmem)
    rw [toList_relativeLine_of_some hread, toList_relativeAddress]
    exact List.not_mem_append hbefore (not_mem_distanceText _)

/-- **The lines of a source**: the header, the lines of the fragment one for one, and the end. -/
theorem splitAt_buildSource (origin : UInt32) (codeType : CodeType) (body : String) :
    splitAt (· == '\n') (buildSource origin codeType body).text.toList =
      (sourceHeader codeType (buildSource origin codeType body).padding).map String.toList ++
        (Text.lines body.toList).map (fun line => (relativeLine origin line).toList) ++ ["    END".toList, []] := by
  have hclear {line : List Char} (h : '\n' ∉ line) : ∀ c ∈ line, (c == '\n') = false :=
    fun c hc => beq_eq_false_iff_ne.2 fun heq => h (heq ▸ hc)
  rw [toList_text_buildSource]
  refine (@splitAt_flatMap (· == '\n') '\n' rfl _ ?_).trans (List.append_assoc _ _ [[]])
  · intro line hline
    simp only [List.mem_append, List.mem_map, List.mem_singleton] at hline
    rcases hline with (⟨words, hwords, rfl⟩ | ⟨own, hown, rfl⟩) | rfl
    · exact hclear (not_mem_of_mem_sourceHeader hwords)
    · exact hclear (not_mem_relativeLine (not_mem_of_mem_lines hown) origin)
    · exact hclear (by decide)

theorem forall₂_keepsAddress_iff (origin : UInt32) (lines : List (List Char)) :
    List.Forall₂ (KeepsAddress origin) lines (lines.map fun line => (relativeLine origin line).toList) ↔
      ∀ line ∈ lines, ¬NamesFar line := by
  rw [List.forall₂_map_right_iff, List.forall₂_same]
  exact forall₂_congr fun line _ => keepsAddress_relativeLine_iff origin line

/-- **The source of a fragment.** Behind the header, which has as much space as the padding says, the lines of the fragment
stand one for one and in order, each left as it is or with an expression for the low word of its address. They all keep
their addresses if none of them names a place far off. The padding is the exact one, so that nothing overflows; it reaches
down to every word below the start that a line names, and not below zero. -/
theorem buildSource_rewriting (origin : UInt32) (codeType : CodeType) (body : String) :
    (∃ emitted : List (List Char),
      splitAt (· == '\n') (buildSource origin codeType body).text.toList =
          (sourceHeader codeType (buildSource origin codeType body).padding).map String.toList ++ emitted ++
            ["    END".toList, []] ∧
        List.Forall₂ (Emitted origin) (Text.lines body.toList) emitted ∧
        (List.Forall₂ (KeepsAddress origin) (Text.lines body.toList) emitted ↔
          ∀ line ∈ Text.lines body.toList, ¬NamesFar line)) ∧
      (buildSource origin codeType body).padding.toNat =
        exactPadding origin.toNat (lowestAddress origin (Text.lines body.toList)).toNat ∧
      (buildSource origin codeType body).padding ≤ origin ∧
      ∀ line ∈ Text.lines body.toList, ∀ before t, NamesAddress line before t → t < 0x100000000 → t < origin.toNat →
        origin.toNat - t ≤ (buildSource origin codeType body).padding.toNat := by
  refine ⟨⟨_, splitAt_buildSource origin codeType body, ?_, forall₂_keepsAddress_iff origin _⟩, toNat_padding .., ?_, ?_⟩
  · rw [List.forall₂_map_right_iff, List.forall₂_same]
    exact fun line _ => emitted_relativeLine origin line
  · rw [UInt32.le_iff_toNat_le, toNat_padding]
    exact exactPadding_le _ _
  · intro line hline before t hnamed hword hlt
    have hread := hnamed.addressLine?_eq (by omega)
    have hlowest := UInt32.le_iff_toNat_le.1 (lowestAddress_le origin hline hread)
    rw [UInt32.toNat_ofNat', Nat.mod_eq_of_lt hword] at hlowest
    have hreach := le_exactPadding origin.toNat (lowestAddress origin (Text.lines body.toList)).toNat
    rw [toNat_padding]
    omega

/-- A branch to a place far off. -/
def farBody : String := "    bl 0x110002000"

theorem namesFar_farBody : NamesFar farBody.toList := by
  refine ⟨"    bl ".toList, 0x110002000, ?_, by decide, by decide⟩
  have hnumber : NamesNumber "0x110002000".toList 0x110002000 :=
    @NamesNumber.intro 'x' "110002000".toList [] 0x110002000 (.inl rfl) (by decide) (by decide) (List.all_eq_true.1 rfl)
  exact @NamesAddress.branch "    ".toList "bl".toList [' '] [] [] _ _ (List.all_eq_true.1 (by decide)) (by decide)
    (List.all_eq_true.1 rfl) (by decide) (.inl rfl) (.inl rfl) hnumber

/-- **A branch to a place far off** goes to the low word of its address: it does not keep it. -/
theorem not_keepsAddress_farBody :
    relativeLine 0x10001000 farBody.toList = "    bl patch_origin + 0x1000" ∧
      ¬∃ emitted : List (List Char),
        splitAt (· == '\n') (buildSource 0x10001000 .thumb2 farBody).text.toList =
            (sourceHeader .thumb2 (buildSource 0x10001000 .thumb2 farBody).padding).map String.toList ++ emitted ++
              ["    END".toList, []] ∧
          List.Forall₂ (KeepsAddress 0x10001000) (Text.lines farBody.toList) emitted := by
  refine ⟨by decide +kernel, ?_⟩
  rintro ⟨emitted, htext, hkeeps⟩
  rw [splitAt_buildSource] at htext
  have hemitted := List.append_cancel_left (List.append_cancel_right htext)
  rw [← hemitted] at hkeeps
  have honly : farBody.toList ∈ Text.lines farBody.toList := by decide +kernel
  exact (forall₂_keepsAddress_iff _ _).1 hkeeps _ honly namesFar_farBody

end BinaryPatching
