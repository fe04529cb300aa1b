import BinaryPatching.Text.CodePointSet
import BinaryPatching.Text.WordTable

/-!
# `BinaryPatching.Text.Word` — word characters and the words of a text

## Contents
- `isWord`, `isDecimal`: membership in the word characters and in the decimal digits of every script.
- `renameWords`: a renaming applied to the maximal runs of word characters, all else kept.
-/

namespace BinaryPatching.Text

/-- A character that words are made of. Within ASCII these are the letters, the digits and the underscore. -/
def isWord (c : Char) : Bool :=
  if c.toNat < 0x80 then c.isAlphanum || c == '_' else inBoundaries wordBoundaries c

/-- A decimal digit of any script. -/
def isDecimal (c : Char) : Bool :=
  if c.toNat < 0x80 then c.isDigit else inBoundaries digitBoundaries c

theorem isWord_of_ascii {c : Char} (h : c.toNat < 0x80) : isWord c = (c.isAlphanum || c == '_') := by
  simp [isWord, h]

/-- Renames the words of a text of which the word read last, so far, is `word`. -/
def renameWordsFrom (rename : List Char → List Char) (word : List Char) : List Char → List Char
  | [] => rename word
  | c :: rest =>
    if isWord c then renameWordsFrom rename (word ++ [c]) rest
    else rename word ++ c :: renameWordsFrom rename [] rest

/-- The text with every maximal run of word characters replaced by its renaming. The empty run must be its own
    renaming. -/
def renameWords (rename : List Char → List Char) (cs : List Char) : List Char :=
  renameWordsFrom rename [] cs

end BinaryPatching.Text
