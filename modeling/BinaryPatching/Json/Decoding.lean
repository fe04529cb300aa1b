import BinaryPatching.Json.Reader

/-!
# `BinaryPatching.Json.Decoding` — records from JSON values

A record is written as an object, whose members may come in any order and among others, or as the array of its
fields in order. Fields are decoded in the order of the text, so the first fault of the text is the one found.

## Contents
- `JsonFault`: what can be wrong with a text.
- `JsonError`: a fault and the part of the value that has it.
- `Json.Field`, `Json.field`, `Json.readRecord`: records by their fields.
- `Json.textOf`, `Json.itemsOf`: strings and arrays.
- `Json.decode`: a whole text.
-/

namespace BinaryPatching

/-- What can be wrong with a JSON text that should hold a record. -/
inductive JsonFault where
  /-- The text is not JSON, or something follows its value. -/
  | malformed
  /-- A value is of another kind than its place asks for. -/
  | mismatch
  /-- A field is there twice. -/
  | repeatedField (name : String)
  /-- A field is not there. -/
  | missingField (name : String)
  /-- A record is given by more items than it has fields. -/
  | tooManyFields
  /-- A string should be pairs of hexadecimal digits. -/
  | invalidBytes (text : String)
  /-- A string should be a hexadecimal address. -/
  | invalidAddress (text : String)
deriving Repr, DecidableEq

/-- The wording of a fault. -/
def JsonFault.message : JsonFault → String
  | .malformed => "the text is not well formed"
  | .mismatch => "a value has the wrong type"
  | .repeatedField name => "duplicate field " ++ name
  | .missingField name => "missing field " ++ name
  | .tooManyFields => "too many fields"
  | .invalidBytes text => "invalid hex byte string: " ++ text
  | .invalidAddress text => "invalid address: " ++ text

/-- A fault of a value. -/
structure JsonError where
  /-- What is wrong. -/
  fault : JsonFault
  /-- The part that has the fault, by its numbers in the arrays and objects around it, from the outermost on. -/
  path : List Nat
deriving Repr, DecidableEq

/-- A fault of the part of some number, seen from the whole. -/
def JsonError.inside (part : Nat) (e : JsonError) : JsonError := { e with path := part :: e.path }

namespace Json

/-! ## Records -/

/-- A field of a record that is built up in a draft of type `σ`. -/
structure Field (σ : Type) where
  /-- The name of the member that gives the field. -/
  name : String
  /-- Whether the draft has the field already. -/
  isSet : σ → Bool
  /-- The draft with the field taken from a value. -/
  read : Json → σ → Except JsonError σ

variable {σ α : Type}

/-- A field that is kept in one place of the draft. -/
def field (name : String) (get : σ → Option α) (set : σ → α → σ) (decode : Json → Except JsonError α) :
    Field σ where
  name := name
  isSet draft := (get draft).isSome
  read v draft := (decode v).map (set draft)

/-- The draft after the members of an object, of which `before` have been read. Members of other names are passed
    over, but must be well formed. -/
def readFields (fields : List (Field σ)) (before : Nat) : List (Option String × Json) → σ → Except JsonError σ
  | [], draft => .ok draft
  | (none, _) :: _, _ => .error ⟨.malformed, [before]⟩
  | (some key, v) :: rest, draft =>
    match fields.find? (·.name == key) with
    | some field =>
      if field.isSet draft then .error ⟨.repeatedField key, [before]⟩
      else match field.read v draft with
        | .ok draft => readFields fields (before + 1) rest draft
        | .error e => .error (e.inside before)
    | none =>
      if v.wellFormed then readFields fields (before + 1) rest draft else .error ⟨.malformed, [before]⟩

/-- The draft after the items of an array, of which `before` have been read. They give the fields in order. -/
def readPositions (before : Nat) : List (Field σ) → List Json → σ → Except JsonError σ
  | _, [], draft => .ok draft
  | [], v :: _, _ => .error ⟨if v.wellFormed then .tooManyFields else .malformed, [before]⟩
  | field :: fields, v :: rest, draft =>
    match field.read v draft with
    | .ok draft => readPositions (before + 1) fields rest draft
    | .error e => .error (e.inside before)

/-- The draft of a record. -/
def readRecord (fields : List (Field σ)) (draft : σ) : Json → Except JsonError σ
  | .object members => readFields fields 0 members draft
  | .array items => readPositions 0 fields items draft
  | .broken => .error ⟨.malformed, []⟩
  | _ => .error ⟨.mismatch, []⟩

/-- A field that has to be there. -/
def required (name : String) : Option α → Except JsonError α
  | some v => .ok v
  | none => .error ⟨.missingField name, []⟩

/-! ## Values -/

/-- The text of a string. -/
def textOf : Json → Except JsonError String
  | .string (some s) => .ok s
  | .string none => .error ⟨.malformed, []⟩
  | .broken => .error ⟨.malformed, []⟩
  | _ => .error ⟨.mismatch, []⟩

/-- The decoded values of a list, in order, up to the first fault, when `before` have been decoded. -/
def decodeAll (decode : Json → Except JsonError α) (before : Nat) : List Json → Except JsonError (List α)
  | [] => .ok []
  | v :: rest =>
    match decode v with
    | .error e => .error (e.inside before)
    | .ok x =>
      match decodeAll decode (before + 1) rest with
      | .error e => .error e
      | .ok xs => .ok (x :: xs)

/-- The decoded items of an array. -/
def itemsOf (decode : Json → Except JsonError α) : Json → Except JsonError (List α)
  | .array items => decodeAll decode 0 items
  | .broken => .error ⟨.malformed, []⟩
  | _ => .error ⟨.mismatch, []⟩

/-- What a whole text denotes. -/
def decode (decoder : Json → Except JsonError α) (text : String) : Except JsonError α :=
  let document := read text
  match decoder document.value with
  | .error e => .error e
  | .ok v => if document.complete then .ok v else .error ⟨.malformed, []⟩

/-- A list is decoded from the array of its encoded members if every member is. -/
theorem decodeAll_map {encode : α → Json} {decode : Json → Except JsonError α} {xs : List α}
    (h : ∀ x ∈ xs, decode (encode x) = .ok x) (before : Nat) :
    decodeAll decode before (xs.map encode) = .ok xs := by
  induction xs generalizing before with
  | nil => rfl
  | cons x rest ih =>
    simp only [List.map_cons, decodeAll, h x (by simp), ih fun y hy => h y (by simp [hy])]

end Json

end BinaryPatching
