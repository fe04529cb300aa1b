import BinaryPatching.Json.Printer
import BinaryPatching.Json.Reader

/-!
# `BinaryPatching.Proofs.Json.RoundTrip` — values read back from their text

The printer and the reader are inverse to each other on the values that this library writes: those made of texts,
truth values, arrays and objects.

## Contents
- `nextPiece_escapeChar`, `readString_escaped`: string literals.
- `plain`: the values that are read back.
- `readValue_lay`, `readItems_lay`, `readMembers_lay`: values inside a text.
- `read_pretty`: whole texts.
-/

namespace BinaryPatching.Json

/-! ## String literals -/

/-- A digit of an escape denotes the number it was made from. -/
theorem hexValue_escapeDigit : ∀ n < 16, hexValue (escapeDigit n) = some n := by decide

/-- A character that is not special inside a literal is read as it stands. -/
theorem nextPiece_of_plain {c : Char} (hquote : c ≠ '"') (hslash : c ≠ '\\') (hlow : ¬c.toNat < 0x20)
    (rest : List Char) : nextPiece (c :: rest) = .char c rest := by
  unfold nextPiece
  split <;> simp_all

/-- The short escapes. -/
theorem nextPiece_simple {e c : Char} (he : e ≠ 'u') (h : simpleEscape e = some c) (rest : List Char) :
    nextPiece ('\\' :: e :: rest) = .char c rest := by
  unfold nextPiece
  split <;> grind

/-- The escapes by code unit, of a unit that is a character. -/
theorem nextPiece_unit {a b c d : Char} {n : Nat} (h : hexUnit a b c d = some n) (hn : n < 0xD800) (rest : List Char) :
    nextPiece ('\\' :: 'u' :: a :: b :: c :: d :: rest) = .char (Char.ofNat n) rest := by
  have hunit : nextPiece ('\\' :: 'u' :: a :: b :: c :: d :: rest) = unitPiece n rest := by
    simp only [nextPiece, h]
  rw [hunit]
  unfold unitPiece
  rw [if_neg (by omega), if_neg (by omega)]

/-- **An escaped character** is read back. -/
theorem nextPiece_escapeChar (c : Char) (rest : List Char) : nextPiece (escapeChar c ++ rest) = .char c rest := by
  unfold escapeChar
  by_cases hquote : c = '"'
  · rw [if_pos hquote, hquote]
    exact nextPiece_simple (by decide) rfl rest
  rw [if_neg hquote]
  by_cases hslash : c = '\\'
  · rw [if_pos hslash, hslash]
    exact nextPiece_simple (by decide) rfl rest
  rw [if_neg hslash]
  by_cases hn : c = '\n'
  · rw [if_pos hn, hn]
    exact nextPiece_simple (by decide) rfl rest
  rw [if_neg hn]
  by_cases hr : c = '\r'
  · rw [if_pos hr, hr]
    exact nextPiece_simple (by decide) rfl rest
  rw [if_neg hr]
  by_cases ht : c = '\t'
  · rw [if_pos ht, ht]
    exact nextPiece_simple (by decide) rfl rest
  rw [if_neg ht]
  have hself : Char.ofNat c.toNat = c := Char.ofNat_toNat c
  by_cases hb : c.toNat = 8
  · rw [if_pos hb, ← hself, hb]
    exact nextPiece_simple (by decide) rfl rest
  rw [if_neg hb]
  by_cases hf : c.toNat = 12
  · rw [if_pos hf, ← hself, hf]
    exact nextPiece_simple (by decide) rfl rest
  rw [if_neg hf]
  by_cases hlow : c.toNat < 0x20
  · rw [if_pos hlow]
    have hunit : hexUnit '0' '0' (escapeDigit (c.toNat / 16)) (escapeDigit (c.toNat % 16)) = some c.toNat := by
      unfold hexUnit
      rw [hexValue_escapeDigit _ (by omega), hexValue_escapeDigit _ (by omega)]
      show some (((0 * 16 + 0) * 16 + c.toNat / 16) * 16 + c.toNat % 16) = _
      congr 1
      omega
    have hpiece := nextPiece_unit hunit (by omega) rest
    rw [hself] at hpiece
    exact hpiece
  · rw [if_neg hlow]
    exact nextPiece_of_plain hquote hslash hlow rest

theorem readString_of_char {cs rest : List Char} {c : Char} (h : nextPiece cs = .char c rest) (read : List Char)
    (whole : Bool) : readString read whole cs = readString (c :: read) whole rest := by
  rw [readString]
  split <;> simp_all

theorem readString_of_close {cs rest : List Char} (h : nextPiece cs = .close rest) (read : List Char)
    (whole : Bool) :
    readString read whole cs = some (if whole then some (String.ofList read.reverse) else none, rest) := by
  rw [readString]
  split <;> simp_all

/-- **An escaped text** is read back up to the closing quote. -/
theorem readString_escaped (read cs rest : List Char) :
    readString read true (cs.flatMap escapeChar ++ '"' :: rest)
      = some (some (String.ofList (read.reverse ++ cs)), rest) := by
  induction cs generalizing read with
  | nil =>
    rw [List.flatMap_nil, List.nil_append, readString_of_close rfl, List.append_nil]
    rfl
  | cons c cs ih =>
    rw [List.flatMap_cons, List.append_assoc, readString_of_char (nextPiece_escapeChar c _), ih, List.reverse_cons,
      List.append_assoc, List.singleton_append]

/-- A string literal after its opening quote. -/
theorem readString_literal (s : String) (rest : List Char) :
    readString [] true (s.toList.flatMap escapeChar ++ '"' :: rest) = some (some s, rest) := by
  rw [readString_escaped, List.reverse_nil, List.nil_append, String.ofList_toList]

/-! ## Blanks -/

theorem skipSpace_of_not {c : Char} (h : isSpace c = false) (rest : List Char) : skipSpace (c :: rest) = c :: rest := by
  unfold skipSpace
  rw [List.dropWhile_cons_of_neg (by rw [h]; exact Bool.false_ne_true)]

/-- A new line is passed over. -/
theorem skipSpace_newLine (level : Nat) (rest : List Char) : skipSpace (newLine level ++ rest) = skipSpace rest := by
  have hblanks : ∀ n : Nat, skipSpace (List.replicate n ' ' ++ rest) = skipSpace rest := by
    intro n
    induction n with
    | zero => rfl
    | succ n ih => exact ih
  exact hblanks (2 * level)

/-! ## Values -/

mutual
/-- Whether a value is made of texts, truth values, arrays and objects only. -/
def plain : Json → Bool
  | .null | .bool _ => true
  | .string text => text.isSome
  | .array items => plainItems items
  | .object members => plainMembers members
  | .number _ | .broken => false

/-- Whether all items are plain. -/
def plainItems : List Json → Bool
  | [] => true
  | v :: rest => plain v && plainItems rest

/-- Whether all members are plain and have names. -/
def plainMembers : List (Option String × Json) → Bool
  | [] => true
  | (k, v) :: rest => k.isSome && plain v && plainMembers rest
end

/-- The text of a plain value begins with no blank and with no closing bracket. -/
theorem exists_cons_lay {v : Json} (h : plain v = true) (level : Nat) :
    ∃ c rest, lay level v = c :: rest ∧ isSpace c = false ∧ c ≠ ']' ∧ c ≠ '\x7d' := by
  cases v with
  | null => exact ⟨_, _, rfl, by decide, by decide, by decide⟩
  | bool b => cases b <;> exact ⟨_, _, rfl, by decide, by decide, by decide⟩
  | number literal => cases h
  | string text => exact ⟨_, _, rfl, by decide, by decide, by decide⟩
  | array items => cases items <;> exact ⟨_, _, rfl, by decide, by decide, by decide⟩
  | object members =>
    cases members with
    | nil => exact ⟨_, _, rfl, by decide, by decide, by decide⟩
    | cons kv rest => exact ⟨_, _, rfl, by decide, by decide, by decide⟩
  | broken => cases h

theorem skipSpace_lay {v : Json} (h : plain v = true) (level : Nat) (rest : List Char) :
    skipSpace (lay level v ++ rest) = lay level v ++ rest := by
  obtain ⟨c, cs, hc, hs, _⟩ := exists_cons_lay h level
  rw [hc]
  exact skipSpace_of_not hs _

theorem skipSpace_blank_lay {v : Json} (h : plain v = true) (level : Nat) (rest : List Char) :
    skipSpace (' ' :: (lay level v ++ rest)) = lay level v ++ rest :=
  skipSpace_lay h level rest

/-! ## Values in a text -/

/-- After the opening bracket of a plain array that is not empty come its items. -/
theorem readValue_array {v : Json} (hv : plain v = true) {fuel level : Nat} {cs body : List Char}
    (hcs : skipSpace cs = '[' :: newLine level ++ (lay level v ++ body)) :
    readValue (fuel + 1) cs
      = (.array (readItems fuel (lay level v ++ body)).1, (readItems fuel (lay level v ++ body)).2) := by
  obtain ⟨c, tail, hc, hs, hbracket, _⟩ := exists_cons_lay hv level
  have hskip : skipSpace (newLine level ++ (lay level v ++ body)) = c :: (tail ++ body) := by
    rw [skipSpace_newLine, skipSpace_lay hv, hc]
    rfl
  rw [readValue, hcs]
  simp only [List.cons_append]
  rw [hskip]
  split
  · rename_i heq
    exact absurd (List.cons.inj heq).1 hbracket
  · rw [hc]
    rfl

/-- After the opening brace of an object that is not empty come its members. -/
theorem readValue_object {fuel level : Nat} {cs body : List Char}
    (hcs : skipSpace cs = '\x7b' :: newLine level ++ '"' :: body) :
    readValue (fuel + 1) cs
      = (.object (readMembers fuel ('"' :: body)).1, (readMembers fuel ('"' :: body)).2) := by
  have hskip : skipSpace (newLine level ++ '"' :: body) = '"' :: body := by
    rw [skipSpace_newLine]
    exact skipSpace_of_not (by decide) _
  rw [readValue, hcs]
  simp only [List.cons_append]
  rw [hskip]
  rfl

mutual
/-- **A plain value** is read back, whatever follows it. -/
theorem readValue_lay : ∀ (v : Json) (fuel level : Nat) (cs tail : List Char), plain v = true →
    (lay level v).length ≤ fuel → skipSpace cs = lay level v ++ tail → readValue fuel cs = (v, tail)
  | .null, fuel + 1, level, cs, tail, _, _, hcs => by
    rw [readValue, hcs]
    rfl
  | .bool true, fuel + 1, level, cs, tail, _, _, hcs => by
    rw [readValue, hcs]
    rfl
  | .bool false, fuel + 1, level, cs, tail, _, _, hcs => by
    rw [readValue, hcs]
    rfl
  | .string (some s), fuel + 1, level, cs, tail, _, _, hcs => by
    rw [readValue, hcs]
    show (match readString [] true (s.toList.flatMap escapeChar ++ ['"'] ++ tail) with
      | some (text, after) => (Json.string text, after)
      | none => (.broken, _)) = _
    rw [List.append_assoc, List.singleton_append, readString_literal]
  | .array [], fuel + 1, level, cs, tail, _, _, hcs => by
    rw [readValue, hcs]
    rfl
  | .array (v :: rest), fuel + 1, level, cs, tail, hv, hfuel, hcs => by
    rw [plain, plainItems, Bool.and_eq_true] at hv
    rw [lay] at hcs hfuel
    simp only [List.cons_append, List.append_assoc, List.nil_append, List.length_cons, List.length_append] at hcs hfuel
    rw [readValue_array hv.1 hcs,
      readItems_lay v rest fuel (level + 1) level _ tail hv.1 hv.2 (by omega) (skipSpace_lay hv.1 _ _)]
  | .object [], fuel + 1, level, cs, tail, _, _, hcs => by
    rw [readValue, hcs]
    rfl
  | .object ((some k, v) :: rest), fuel + 1, level, cs, tail, hv, hfuel, hcs => by
    rw [plain, plainMembers, Bool.and_eq_true, Bool.and_eq_true] at hv
    rw [lay, stringLiteral, Option.getD_some] at hcs hfuel
    simp only [List.cons_append, List.append_assoc, List.nil_append, List.length_cons, List.length_append] at hcs hfuel
    rw [readValue_object hcs, readMembers_lay k v rest fuel (level + 1) level _ tail hv.1.2 hv.2 (by omega)
      (skipSpace_of_not (by decide) _)]
  | .object ((none, _) :: _), _, _, _, _, hv, _, _ => by cases hv
  | .number _, _, _, _, _, hv, _, _ => by cases hv
  | .string none, _, _, _, _, hv, _, _ => by cases hv
  | .broken, _, _, _, _, hv, _, _ => by cases hv
  | v, 0, level, _, _, hv, hfuel, _ => by
    obtain ⟨c, tail, hc, _⟩ := exists_cons_lay hv level
    rw [hc] at hfuel
    cases hfuel
termination_by structural _ fuel => fuel

/-- The items of a plain array, up to the closing bracket. -/
theorem readItems_lay : ∀ (v : Json) (rest : List Json) (fuel level outer : Nat) (cs tail : List Char),
    plain v = true → plainItems rest = true → (lay level v).length + (layItems level rest).length + 1 ≤ fuel →
    skipSpace cs = lay level v ++ (layItems level rest ++ (newLine outer ++ (']' :: tail))) →
    readItems fuel cs = (v :: rest, tail)
  | v, [], fuel + 1, level, outer, cs, tail, hv, _, hfuel, hcs => by
    rw [readItems, readValue_lay v fuel level cs _ hv (by omega) hcs]
    show (match skipSpace (newLine outer ++ ']' :: tail) with
      | ',' :: more => _
      | ']' :: after => ([v], after)
      | after => ([v, .broken], after)) = _
    rw [skipSpace_newLine, skipSpace_of_not (by decide)]
    rfl
  | v, w :: rest, fuel + 1, level, outer, cs, tail, hv, hrest, hfuel, hcs => by
    rw [plainItems, Bool.and_eq_true] at hrest
    rw [layItems] at hcs hfuel
    simp only [List.cons_append, List.append_assoc, List.length_cons, List.length_append] at hcs hfuel
    rw [readItems, readValue_lay v fuel level cs _ hv (by omega) hcs]
    simp only [skipSpace_of_not (c := ',') (by decide)]
    rw [readItems_lay w rest fuel level outer _ tail hrest.1 hrest.2 (by omega)
      ((skipSpace_newLine _ _).trans (skipSpace_lay hrest.1 _ _))]
  | _, _, 0, _, _, _, _, _, _, hfuel, _ => by omega
termination_by structural _ _ fuel => fuel

/-- The members of a plain object, up to the closing brace. -/
theorem readMembers_lay : ∀ (k : String) (v : Json) (rest : List (Option String × Json)) (fuel level outer : Nat)
    (cs tail : List Char), plain v = true → plainMembers rest = true →
    (lay level v).length + (layMembers level rest).length + 1 ≤ fuel →
    skipSpace cs = '"' :: (k.toList.flatMap escapeChar ++ '"' :: ':' :: ' ' :: (lay level v
      ++ (layMembers level rest ++ (newLine outer ++ ('\x7d' :: tail))))) →
    readMembers fuel cs = ((some k, v) :: rest, tail)
  | k, v, [], fuel + 1, level, outer, cs, tail, hv, _, hfuel, hcs => by
    rw [readMembers, hcs]
    simp only [readString_literal, skipSpace_of_not (c := ':') (by decide)]
    rw [readValue_lay v fuel level _ _ hv (by omega) (skipSpace_blank_lay hv _ _)]
    simp only [layMembers, List.nil_append, skipSpace_newLine, skipSpace_of_not (c := '\x7d') (by decide)]
  | k, v, (some l, w) :: rest, fuel + 1, level, outer, cs, tail, hv, hrest, hfuel, hcs => by
    rw [plainMembers, Bool.and_eq_true, Bool.and_eq_true] at hrest
    rw [layMembers, stringLiteral, Option.getD_some] at hcs hfuel
    simp only [List.cons_append, List.append_assoc, List.nil_append, List.length_cons, List.length_append] at hcs hfuel
    rw [readMembers, hcs]
    simp only [readString_literal, skipSpace_of_not (c := ':') (by decide)]
    rw [readValue_lay v fuel level _ _ hv (by omega) (skipSpace_blank_lay hv _ _)]
    simp only [skipSpace_of_not (c := ',') (by decide)]
    rw [readMembers_lay l w rest fuel level outer _ tail hrest.1.2 hrest.2 (by omega)
      ((skipSpace_newLine _ _).trans (skipSpace_of_not (by decide) _))]
  | _, _, (none, _) :: _, _, _, _, _, _, _, hrest, _, _ => by cases hrest
  | _, _, _, 0, _, _, _, _, _, _, hfuel, _ => by omega
termination_by structural _ _ _ fuel => fuel
end

/-! ## Whole texts -/

/-- **A plain value is read back from its text**, to the end of it. -/
theorem read_pretty {v : Json} (h : plain v = true) : read (pretty v) = ⟨v, true⟩ := by
  have hskip : skipSpace (lay 0 v) = lay 0 v ++ [] := by
    have := skipSpace_lay h 0 []
    rwa [List.append_nil] at this ⊢
  have hvalue := readValue_lay v ((lay 0 v).length + 1) 0 _ [] h (Nat.le_succ _) hskip
  unfold read
  simp only [toList_pretty, hvalue]
  rfl

end BinaryPatching.Json
