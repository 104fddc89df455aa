import Stencil.Json.Value

/-!
# Decoding JSON values

What all decoders share: the reasons for refusing a document, reading values of the
basic kinds, and the fields of a record. A record is written as an object, or as an
array of its fields in their order.
-/

namespace Stencil

/-- Why a well-formed document is refused. -/
inductive DataFault where
  | invalidType (actual expected : String)
  | invalidValue (actual expected : String)
  | invalidLength (length : Nat) (expected : String)
  | duplicateField (name : String)
  | missingField (name : String)
  | unknownVariant (text : String) (variants : List String)
  | noVariant (name : String)
deriving DecidableEq, Repr

def DataFault.ticked (text : String) : String := "`" ++ text ++ "`"

def DataFault.message : DataFault → String
  | invalidType actual expected => "invalid type: " ++ actual ++ ", expected " ++ expected
  | invalidValue actual expected => "invalid value: " ++ actual ++ ", expected " ++ expected
  | invalidLength length expected =>
    "invalid length " ++ toString length ++ ", expected " ++ expected
  | duplicateField name => "duplicate field " ++ ticked name
  | missingField name => "missing field " ++ ticked name
  | unknownVariant text variants =>
    "unknown variant " ++ ticked text ++ ", expected one of "
      ++ String.intercalate ", " (variants.map ticked)
  | noVariant name => "data did not match any variant of untagged enum " ++ name

inductive DecodeError where
  /-- The text is no JSON, or has a part without a value where one is read. -/
  | malformed
  | data (reason : DataFault)
deriving DecidableEq, Repr

def DecodeError.message : DecodeError → String
  | malformed => "malformed JSON"
  | data reason => reason.message

abbrev Decoded (α : Type) : Type := Except DecodeError α

/-- A record as messages name it. -/
structure RecordShape where
  name : String
  fields : Nat
deriving DecidableEq, Repr

/-- Arrays and objects may be nested this deeply, the outermost one included. -/
def nestingLimit : Nat := 127

namespace Json

/-- Refuse a value of the wrong type. -/
def mismatch {α : Type} (v : Json) (expected : String) : Decoded α :=
  match v with
  | .broken => .error .malformed
  | v => .error (.data (.invalidType v.describe expected))

def asText : Json → Decoded String
  | .text value => .ok value
  | v => v.mismatch "a string"

def asBool : Json → Decoded Bool
  | .bool value => .ok value
  | v => v.mismatch "a boolean"

def asSize : Json → Decoded Nat
  | .int value =>
    if 0 ≤ value then .ok value.toNat
    else .error (.data (.invalidValue (Json.int value).describe "usize"))
  | v => v.mismatch "usize"

def asItems : Json → Decoded (List Json)
  | .array items => .ok items
  | v => v.mismatch "a sequence"

def asTexts (v : Json) : Decoded (List String) := do
  (← v.asItems).mapM asText

def asSizes (v : Json) : Decoded (List Nat) := do
  (← v.asItems).mapM asSize

/-- A value that is read before its type is known: it must be whole, and its nesting
must stay within the levels that are left. -/
def buffer (levels : Nat) (v : Json) : Decoded Unit :=
  if v.isWhole ∧ v.depth ≤ levels then .ok () else .error .malformed

end Json

/-! ## Records -/

/-- A field may be read once. -/
def unfilled {α : Type} (name : String) (slot : Option α) : Decoded Unit :=
  if slot.isSome then .error (.data (.duplicateField name)) else .ok ()

def required {α : Type} (name : String) (slot : Option α) : Decoded α :=
  match slot with
  | some value => .ok value
  | none => .error (.data (.missingField name))

namespace RecordShape

def describe (r : RecordShape) : String := "struct " ++ r.name

/-- The field at an index of a record that is written as an array. -/
def element (r : RecordShape) (items : List Json) (index : Nat) : Decoded Json :=
  match items[index]? with
  | some v => .ok v
  | none =>
    .error (.data (.invalidLength index (r.describe ++ " with " ++ toString r.fields
      ++ (if r.fields = 1 then " element" else " elements"))))

/-- An array must not go on after the last field. -/
def checkEnd (r : RecordShape) (items : List Json) : Decoded Unit :=
  if items.length ≤ r.fields then .ok () else .error .malformed

/-- Decode a record from either of its written forms. -/
def decode {α : Type} (r : RecordShape) (ofFields : List (String × Json) → Decoded α)
    (ofItems : List Json → Decoded α) : Json → Decoded α
  | .object fields => ofFields fields
  | .array items => do
    let value ← ofItems items
    r.checkEnd items
    return value
  | v => v.mismatch r.describe

end RecordShape

end Stencil
