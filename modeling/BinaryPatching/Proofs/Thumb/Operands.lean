import BinaryPatching.Proofs.Text.Hexadecimal
import BinaryPatching.Thumb.Instruction
import BinaryPatching.Thumb.Operand

/-!
# `BinaryPatching.Proofs.Thumb.Operands` — operands that end in a value

Branches and loads of constants show a value as their last operand, alone or behind a register. The plain names of
registers leave it as it is, and it is read back from the text.

## Contents
- `Register.plainName`, `toList_plainValue`, `toList_plainOperands`: the operands under the plain names of registers.
- `literalValue_of_operands`: the value that they end in.
-/

namespace BinaryPatching.Thumb

open Text

/-! ## Their spelling -/

/-- The plain name of a register: the numbered one, unless it has a use of its own. -/
def Register.plainName (r : Register) : List Char := plainRegisterName r.name.toList

/-- A word at the front is renamed by itself. -/
theorem renameWordsFrom_append {rename : List Char → List Char} {word front : List Char}
    (hfront : ∀ c ∈ front, isWord c = true) {d : Char} (hd : isWord d = false) (rest : List Char) :
    renameWordsFrom rename word (front ++ d :: rest)
      = rename (word ++ front) ++ d :: renameWordsFrom rename [] rest := by
  induction front generalizing word with
  | nil =>
    rw [List.nil_append, List.append_nil, renameWordsFrom, hd]
    rfl
  | cons c front ih =>
    rw [List.cons_append, renameWordsFrom, hfront c List.mem_cons_self, if_pos rfl,
      ih fun x hx => hfront x (List.mem_cons_of_mem _ hx), List.append_assoc]
    rfl

/-- A single word is renamed as a whole. -/
theorem renameWordsFrom_word {rename : List Char → List Char} {word cs : List Char}
    (hcs : ∀ c ∈ cs, isWord c = true) : renameWordsFrom rename word cs = rename (word ++ cs) := by
  induction cs generalizing word with
  | nil => rw [renameWordsFrom, List.append_nil]
  | cons c cs ih =>
    rw [renameWordsFrom, hcs c List.mem_cons_self, if_pos rfl, ih fun x hx => hcs x (List.mem_cons_of_mem _ hx),
      List.append_assoc]
    rfl

/-- The digits of a number are word characters. -/
theorem isWord_hexLiteral (n : Nat) : ∀ c ∈ '0' :: 'x' :: Nat.toDigits 16 n, isWord c = true := by
  intro c hc
  rcases List.mem_cons.1 hc with rfl | hc
  · decide
  rcases List.mem_cons.1 hc with rfl | hc
  · decide
  · exact forall_mem_toDigits (p := (isWord · = true)) (by decide) n c hc

/-- The name of a register is a word. -/
theorem isWord_registerName (r : Register) : ∀ c ∈ r.name.toList, isWord c = true := by
  have hall : ∀ r : Register, r.name.toList.all isWord = true := by decide +kernel
  exact List.all_eq_true.1 (hall r)

/-- A value at the end stays as it is. -/
theorem renameWordsFrom_value (n : Nat) :
    renameWordsFrom plainRegisterName [] ('#' :: '0' :: 'x' :: Nat.toDigits 16 n)
      = '#' :: '0' :: 'x' :: Nat.toDigits 16 n := by
  have hempty : ∀ c ∈ ([] : List Char), isWord c = true := fun c hc => absurd hc List.not_mem_nil
  show renameWordsFrom plainRegisterName [] ([] ++ '#' :: '0' :: 'x' :: Nat.toDigits 16 n) = _
  rw [renameWordsFrom_append hempty (by decide), renameWordsFrom_word (isWord_hexLiteral n)]
  rfl

/-- **A value** under the plain names. -/
theorem toList_plainValue (n : Nat) :
    (plainRegisterNames ("#0x" ++ lowerHex n)).toList = '#' :: '0' :: 'x' :: Nat.toDigits 16 n := by
  have htext : ("#0x" ++ lowerHex n).toList = '#' :: '0' :: 'x' :: Nat.toDigits 16 n := by simp
  rw [plainRegisterNames, toList_onChars, htext, renameWords, renameWordsFrom_value]

/-- **A register and a value** under the plain names. -/
theorem toList_plainOperands (r : Register) (n : Nat) :
    (plainRegisterNames (r.name ++ ", #0x" ++ lowerHex n)).toList
      = r.plainName ++ ',' :: ' ' :: '#' :: '0' :: 'x' :: Nat.toDigits 16 n := by
  have htext : (r.name ++ ", #0x" ++ lowerHex n).toList
      = r.name.toList ++ ',' :: ([] ++ ' ' :: '#' :: '0' :: 'x' :: Nat.toDigits 16 n) := by
    simp
  have hempty : ∀ c ∈ ([] : List Char), isWord c = true := fun c hc => absurd hc List.not_mem_nil
  rw [plainRegisterNames, toList_onChars, htext, renameWords,
    renameWordsFrom_append (isWord_registerName r) (by decide), renameWordsFrom_append hempty (by decide),
    renameWordsFrom_value]
  rfl

/-! ## The value read back -/

/-- A literal behind the last mark is the number that a text ends in. -/
theorem endingNumber?_append {front number : List Char} (hmark : '#' ∉ number)
    (hblank : ∀ c ∈ number, isBlank c = false) (hliteral : isLiteral number = true) :
    endingNumber? (front ++ '#' :: number) = some number := by
  have hall : ∀ c ∈ number.reverse, (c != '#') = true := fun c hc =>
    bne_iff_ne.2 fun heq => hmark (heq ▸ List.mem_reverse.1 hc)
  have hlast : ((front ++ '#' :: number).reverse.takeWhile (· != '#')).reverse = number := by
    rw [List.reverse_append, List.reverse_cons, List.append_assoc, List.takeWhile_append_of_pos hall,
      List.singleton_append, List.takeWhile_cons_of_neg (by decide), List.append_nil, List.reverse_reverse]
  have htrim : trimEnd number = number := by
    cases number with
    | nil => rfl
    | cons c rest =>
      have hstart := trimStart_of_not_blank rest (hblank c List.mem_cons_self)
      have hboth := trim_of_no_blank hblank
      rwa [trim, hstart] at hboth
  have hcontains : (front ++ '#' :: number).contains '#' = true := List.contains_iff_mem.2 (by simp)
  unfold endingNumber?
  dsimp only
  rw [hlast, htrim, hcontains, hliteral]
  rfl

theorem lowWord_toNat (w : UInt32) : lowWord (w.toNat : Int) = w := by
  have hlt := w.toNat_lt
  have hmod : ((w.toNat : Int) % 0x100000000).toNat = w.toNat := by omega
  rw [lowWord, hmod, UInt32.ofNat_toNat]

/-- **The value at the end** is the literal of the instruction. -/
theorem literalValue_of_operands {i : Instruction} {front : List Char} {w : UInt32}
    (h : i.operands.toList = front ++ '#' :: '0' :: 'x' :: Nat.toDigits 16 w.toNat) : i.literalValue = some w := by
  have hlt := w.toNat_lt
  have hmark : '#' ∉ '0' :: 'x' :: Nat.toDigits 16 w.toNat := not_mem_hexLiteral (by decide) (by decide) _
  rw [Instruction.literalValue, h, endingNumber?_append hmark (isBlank_hexLiteral _) (isLiteral_toDigits _),
    Option.bind_some, parseNumber_toDigits (by omega), Option.map_some, lowWord_toNat]

end BinaryPatching.Thumb
