import BinaryPatching.Text.Lowercase
import BinaryPatching.Text.Numeral

/-!
# `BinaryPatching.Pattern.Token` — the tokens of commands and patterns

One lexical grammar serves script lines, instruction texts and the patterns they are matched against: names,
numbers, strings in double quotes, and single symbols. Blanks separate tokens and have no other meaning.

## Contents
- `PatternError`: what can be wrong with a text.
- `Token`, with `Token.text`, `Token.written`: tokens and their spelling.
- `readQuoted`: the inside of a string.
- `Token.scan`, `tokenize`: the tokens of a text.
- `tokenizeInstruction`: the tokens of an instruction or a pattern for one.
-/

namespace BinaryPatching

open Text

/-- What can be wrong with a text that should hold tokens or a pattern. -/
inductive PatternError where
  /-- A character begins no token. -/
  | unexpected (column : Nat) (character : Char)
  /-- A string has no end. -/
  | unterminatedString (column : Nat)
  /-- What begins as a number is none. -/
  | invalidNumber (text : String)
  /-- A text is no pattern for bytes. -/
  | invalidBytePattern (text : String)
  /-- There is nothing to look for. -/
  | empty
deriving Repr, DecidableEq

/-- The wording of an error. -/
def PatternError.message : PatternError → String
  | .unexpected column character =>
    "Syntax error at column " ++ decimal column ++ ": unexpected '" ++ String.singleton character ++ "'"
  | .unterminatedString column => "Unterminated string starting at column " ++ decimal column
  | .invalidNumber text => "Invalid number: " ++ text
  | .invalidBytePattern text => "Invalid byte pattern: " ++ text
  | .empty => "Empty pattern"

/-! ## Tokens -/

/-- The kinds of tokens. -/
inductive TokenKind where
  /-- A bracket of any shape. -/
  | bracket
  /-- A comma. -/
  | separator
  /-- Any other symbol. -/
  | operator
  /-- A name or a string. -/
  | text
  /-- A number. -/
  | number
deriving Repr, DecidableEq

/-- A token. -/
inductive Token where
  /-- A bracket. -/
  | bracket (symbol : Char)
  /-- A comma. -/
  | separator
  /-- A symbol that is neither bracket nor comma. -/
  | operator (symbol : Char)
  /-- A name. -/
  | name (text : String)
  /-- A string, by what stands between its quotes. -/
  | string (text : String)
  /-- A number, as written and by its value. -/
  | number (text : String) (value : Int)
deriving Repr, DecidableEq

namespace Token

/-- The kind of a token. -/
def kind : Token → TokenKind
  | bracket _ => .bracket
  | separator => .separator
  | operator _ => .operator
  | name _ => .text
  | string _ => .text
  | number _ _ => .number

/-- The text of a token; of a string, what stands between its quotes. -/
def text : Token → String
  | bracket c => String.singleton c
  | separator => ","
  | operator c => String.singleton c
  | name s => s
  | string s => s
  | number s _ => s

/-- The value of a number. -/
def value : Token → Option Int
  | number _ v => some v
  | _ => none

/-- Whether the token is a string. -/
def isQuoted : Token → Bool
  | string _ => true
  | _ => false

/-- The text of a token as messages show it, strings between quotes. -/
def written (t : Token) : String := if t.isQuoted then "\"" ++ t.text ++ "\"" else t.text

/-- Whether the token stands for any one token. -/
def isWildcard (t : Token) : Bool := t.text == "?" && !t.isQuoted

/-- Whether the token stands for any register. -/
def isRegisterWildcard (t : Token) : Bool := t.text == "r?" && !t.isQuoted

/-! ## The lexical grammar -/

/-- The symbols that are operators. -/
def operators : List Char :=
  ['+', '-', '*', '/', '=', '!', '<', '>', '&', '|', '^', '~', '%', '#', ':', '?', '.', '$', '@', ';']

/-- The brackets. -/
def brackets : List Char := ['[', ']', '\x7b', '\x7d', '(', ')']

/-- A character that a name can begin with. -/
def beginsName (c : Char) : Bool := c.isAlpha || c == '_'

/-- A character that a name can go on with. -/
def continuesName (c : Char) : Bool := c.isAlphanum || c == '_' || c == '.'

/-- A character that a number can go on with. What is no number after all is refused. -/
def continuesNumber (c : Char) : Bool := c.isAlphanum || c == '_'

/-- Whether a minus sign after this token means a difference and not a negative number. -/
def endsOperand : Token → Bool
  | number _ _ => true
  | name _ => true
  | string _ => true
  | bracket c => c == ')'
  | _ => false

/-- The token of a symbol. -/
def ofSymbol? (c : Char) : Option Token :=
  if brackets.contains c then some (.bracket c)
  else if c = ',' then some .separator
  else if operators.contains c then some (.operator c)
  else none

/-- Whether a number begins with `c` before `rest`: at a digit, or at a sign before a digit where a sign can
    stand. -/
def beginsNumber (previous : Option Token) (c : Char) (rest : List Char) : Bool :=
  c.isDigit || (c == '-' && (rest.head?.map Char.isDigit).getD false
    && !(previous.map endsOperand).getD false)

end Token

/-- What stands before the end of a string, and the text behind its end. A backslash before a quote makes the quote
    a part of the string; every other backslash is a part itself. -/
def readQuoted : List Char → Option (List Char × List Char)
  | [] => none
  | '\\' :: '"' :: rest => (readQuoted rest).map fun (text, behind) => ('"' :: text, behind)
  | '"' :: rest => some ([], rest)
  | c :: rest => (readQuoted rest).map fun (text, behind) => (c :: text, behind)

/-- The end of a string is a character of the text. -/
theorem length_readQuoted {cs text behind : List Char} (h : readQuoted cs = some (text, behind)) :
    behind.length < cs.length := by
  fun_induction readQuoted cs generalizing text with
  | case1 => simp at h
  | case2 rest ih =>
    obtain ⟨⟨t, b⟩, hr, he⟩ := Option.map_eq_some_iff.1 h
    cases he
    have := ih hr
    simp only [List.length_cons]; omega
  | case3 rest =>
    cases h
    simp
  | case4 c rest _ _ ih =>
    obtain ⟨⟨t, b⟩, hr, he⟩ := Option.map_eq_some_iff.1 h
    cases he
    have := ih hr
    simp only [List.length_cons]; omega

theorem length_dropWhile_le {α : Type} (p : α → Bool) (l : List α) : (l.dropWhile p).length ≤ l.length :=
  (List.dropWhile_sublist p).length_le

namespace Token

/-- The tokens of the end `cs` of a text of `total` characters, after the token `previous`. -/
def scan (total : Nat) (previous : Option Token) : List Char → Except PatternError (List Token)
  | [] => .ok []
  | c :: rest =>
    if isBlank c then scan total previous rest
    else if beginsName c then
      let token := name (String.ofList (c :: rest.takeWhile continuesName))
      (scan total (some token) (rest.dropWhile continuesName)).map (token :: ·)
    else if beginsNumber previous c rest then
      let text := String.ofList (c :: rest.takeWhile continuesNumber)
      match parseNumber text with
      | none => .error (.invalidNumber text)
      | some v => (scan total (some (number text v)) (rest.dropWhile continuesNumber)).map (number text v :: ·)
    else if c = '"' then
      match _h : readQuoted rest with
      | none => .error (.unterminatedString (total - rest.length))
      | some (text, behind) =>
        let token := string (String.ofList text)
        (scan total (some token) behind).map (token :: ·)
    else
      match ofSymbol? c with
      | none => .error (.unexpected (total - rest.length) c)
      | some token => (scan total (some token) rest).map (token :: ·)
termination_by cs => cs.length
decreasing_by
  · simp only [List.length_cons]; omega
  · have := length_dropWhile_le continuesName rest
    simp only [List.length_cons]; omega
  · have := length_dropWhile_le continuesNumber rest
    simp only [List.length_cons]; omega
  · have := length_readQuoted _h
    simp only [List.length_cons]; omega
  · simp only [List.length_cons]; omega

/-- The tokens of an instruction, where a register letter before a wildcard makes a wildcard for registers. -/
def joinRegisterWildcards : List Token → List Token
  | name "r" :: operator '?' :: rest => name "r?" :: joinRegisterWildcards rest
  | string "r" :: operator '?' :: rest => string "r?" :: joinRegisterWildcards rest
  | t :: rest => t :: joinRegisterWildcards rest
  | [] => []

end Token

/-- The tokens of a text. -/
def tokenize (text : String) : Except PatternError (List Token) :=
  let cs := text.toList
  Token.scan cs.length none cs

/-- The text of an instruction in the form that is compared: small letters, without the marks of literals. -/
def comparableText (text : String) : String := onChars (fun cs => (lowercase cs).filter (· != '#')) text

/-- The tokens of an instruction or of a pattern for one. -/
def tokenizeInstruction (text : String) : Except PatternError (List Token) :=
  (tokenize (comparableText text)).map Token.joinRegisterWildcards

end BinaryPatching
