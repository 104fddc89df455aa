import Stencil.Json.Decode
import Stencil.Json.Reader
import Stencil.Model
import Stencil.Options

/-!
# Decoding models and options

Unknown fields are ignored. A field that is read twice is refused, and so is the first
missing one, once the record has ended.
-/

namespace Stencil

/-- The integers of 64 bits. -/
def isLong (i : Int) : Bool := -9223372036854775808 ≤ i && i < 9223372036854775808

namespace Json

def asLong? : Json → Option Int
  | .int value => if isLong value then some value else none
  | _ => none

def asSingle? : Json → Option Single
  | .int value => some (.ofInt value)
  | .float value => some value.convert
  | _ => none

end Json

/-! ## Tensors -/

def ElementType.decodeName (text : String) : Decoded ElementType :=
  match ElementType.ofName? text with
  | some type => .ok type
  | none => .error (.data (.unknownVariant text (ElementType.all.map ElementType.name)))

/-- An element type is a name, or an object with the name as its only field. -/
def ElementType.decode : Json → Decoded ElementType
  | .text name => decodeName name
  | .object ((name, v) :: rest) => do
    let type ← decodeName name
    match v, rest with
    | .null, [] => return type
    | .null, _ :: _ => .error .malformed
    | v, _ => v.mismatch "unit"
  | _ => .error .malformed

/-- An element type in a buffered record. -/
def ElementType.decodeBuffered : Json → Decoded ElementType
  | .text name => decodeName name
  | .object [(name, v)] => do
    let type ← decodeName name
    match v with
    | .null | .object [] => return type
    | v => v.mismatch "unit"
  | .object fields =>
    .error (.data (.invalidValue (Json.object fields).describe "map with a single key"))
  | v => v.mismatch "string or map"

structure TensorSlots where
  name : Option String := none
  type : Option ElementType := none
  shape : Option (List Nat) := none

namespace TensorSlots

def read (type : Json → Decoded ElementType) (s : TensorSlots) (field : String × Json) :
    Decoded TensorSlots := do
  match field with
  | ("name", v) => unfilled "name" s.name; return { s with name := some (← v.asText) }
  | ("dtype", v) => unfilled "dtype" s.type; return { s with type := some (← type v) }
  | ("shape", v) => unfilled "shape" s.shape; return { s with shape := some (← v.asSizes) }
  | _ => return s

def finish (s : TensorSlots) : Decoded Tensor := do
  return ⟨← required "name" s.name, ← required "dtype" s.type, ← required "shape" s.shape⟩

end TensorSlots

namespace Tensor

def record : RecordShape := ⟨"Tensor", 3⟩

def decodeFields (type : Json → Decoded ElementType) (fields : List (String × Json)) :
    Decoded Tensor := do
  (← fields.foldlM (TensorSlots.read type) {}).finish

def decodeItems (items : List Json) : Decoded Tensor := do
  let name ← (← record.element items 0).asText
  let type ← ElementType.decode (← record.element items 1)
  let shape ← (← record.element items 2).asSizes
  return ⟨name, type, shape⟩

def decode (v : Json) : Decoded Tensor :=
  record.decode (decodeFields ElementType.decode) decodeItems v

end Tensor

/-! ## Attributes and data

Their values are tried as one kind after the other, so they are buffered first. -/

/-- Integers, or else numbers. -/
def decodeNumbers {α : Type} (ints : List Int → α) (floats : List Single → α)
    (items : List Json) : Option α :=
  match items.mapM Json.asLong? with
  | some values => some (ints values)
  | none => (items.mapM Json.asSingle?).map floats

def AttributeValue.ofJson? : Json → Option AttributeValue
  | .int value =>
    if isLong value then some (.int value) else some (.float (.ofInt value))
  | .float value => some (.float value.convert)
  | .array items => decodeNumbers .ints .floats items
  | .text value => some (.text value)
  | _ => none

def AttributeValue.decode (levels : Nat) (v : Json) : Decoded AttributeValue := do
  v.buffer levels
  match AttributeValue.ofJson? v with
  | some value => return value
  | none => .error (.data (.noVariant "AttributeValue"))

/-- The levels are those left inside of the map. -/
def Attributes.decode (levels : Nat) : Json → Decoded Attributes
  | .object fields =>
    fields.foldlM (fun attributes (name, v) => do
      return attributes.put name (← AttributeValue.decode levels v)) []
  | v => v.mismatch "a map"

def TensorData.ofJson? : Json → Option TensorData
  | .array items => decodeNumbers .ints .floats items
  | _ => none

def TensorData.decode (v : Json) : Decoded TensorData :=
  match TensorData.ofJson? v with
  | some data => .ok data
  | none => .error (.data (.noVariant "TensorData"))

/-! ## Initializers

The data are found first; the remaining fields are buffered and then read as a tensor. -/

structure InitializerSlots where
  data : Option TensorData := none
  rest : List (String × Json) := []

namespace InitializerSlots

/-- The levels left inside of an initializer, which lies in an array of the model. -/
def levels : Nat := nestingLimit - 3

def read (s : InitializerSlots) (field : String × Json) : Decoded InitializerSlots := do
  match field with
  | ("data", v) =>
    unfilled "data" s.data
    v.buffer levels
    return { s with data := some (← TensorData.decode v) }
  | (name, v) =>
    v.buffer levels
    return { s with rest := s.rest ++ [(name, v)] }

def finish (s : InitializerSlots) : Decoded Initializer := do
  let data ← required "data" s.data
  return ⟨← Tensor.decodeFields ElementType.decodeBuffered s.rest, data⟩

end InitializerSlots

def Initializer.decode : Json → Decoded Initializer
  | .object fields => do (← fields.foldlM InitializerSlots.read {}).finish
  | v => v.mismatch "struct Initializer"

/-! ## Nodes -/

structure NodeSlots where
  operatorName : Option String := none
  name : Option String := none
  inputs : Option (List String) := none
  outputs : Option (List String) := none
  attributes : Option Attributes := none

namespace NodeSlots

def finish (s : NodeSlots) : Decoded NodeDescription := do
  return {
    operatorName := ← required "op_type" s.operatorName
    name := s.name.getD ""
    inputs := ← required "inputs" s.inputs
    outputs := ← required "outputs" s.outputs
    attributes := s.attributes.getD [] }

end NodeSlots

namespace NodeDescription

def record : RecordShape := ⟨"NodeDescription", 5⟩

/-- The levels left inside of the attributes of a node of a model. -/
def attributeLevels : Nat := nestingLimit - 4

def readField (s : NodeSlots) (field : String × Json) : Decoded NodeSlots := do
  match field with
  | ("op_type", v) =>
    unfilled "op_type" s.operatorName
    return { s with operatorName := some (← v.asText) }
  | ("name", v) => unfilled "name" s.name; return { s with name := some (← v.asText) }
  | ("inputs", v) => unfilled "inputs" s.inputs; return { s with inputs := some (← v.asTexts) }
  | ("outputs", v) => unfilled "outputs" s.outputs; return { s with outputs := some (← v.asTexts) }
  | ("attributes", v) =>
    unfilled "attributes" s.attributes
    return { s with attributes := some (← Attributes.decode attributeLevels v) }
  | _ => return s

def decodeFields (fields : List (String × Json)) : Decoded NodeDescription := do
  (← fields.foldlM readField {}).finish

def decodeItems (items : List Json) : Decoded NodeDescription := do
  let operatorName ← (← record.element items 0).asText
  let name ← (items[1]?).elim (pure "") Json.asText
  let inputs ← (← record.element items 2).asTexts
  let outputs ← (← record.element items 3).asTexts
  let attributes ← (items[4]?).elim (pure []) (Attributes.decode attributeLevels)
  return { operatorName, name, inputs, outputs, attributes }

def decode (v : Json) : Decoded NodeDescription := record.decode decodeFields decodeItems v

end NodeDescription

/-! ## Models -/

structure ModelSlots where
  name : Option String := none
  inputs : Option (List Tensor) := none
  initializers : Option (List Initializer) := none
  nodes : Option (List NodeDescription) := none
  outputs : Option (List String) := none

namespace Model

def record : RecordShape := ⟨"ModelDescription", 5⟩

def decodeInputs (v : Json) : Decoded (List Tensor) := do
  (← v.asItems).mapM Tensor.decode

def decodeInitializers (v : Json) : Decoded (List Initializer) := do
  (← v.asItems).mapM Initializer.decode

def decodeNodes (v : Json) : Decoded (List NodeDescription) := do
  (← v.asItems).mapM NodeDescription.decode

def readField (s : ModelSlots) (field : String × Json) : Decoded ModelSlots := do
  match field with
  | ("name", v) => unfilled "name" s.name; return { s with name := some (← v.asText) }
  | ("inputs", v) =>
    unfilled "inputs" s.inputs
    return { s with inputs := some (← decodeInputs v) }
  | ("initializers", v) =>
    unfilled "initializers" s.initializers
    return { s with initializers := some (← decodeInitializers v) }
  | ("nodes", v) =>
    unfilled "nodes" s.nodes
    return { s with nodes := some (← decodeNodes v) }
  | ("outputs", v) => unfilled "outputs" s.outputs; return { s with outputs := some (← v.asTexts) }
  | _ => return s

def finish (s : ModelSlots) : Decoded Model := do
  return {
    name := s.name.getD ""
    inputs := ← required "inputs" s.inputs
    initializers := s.initializers.getD []
    nodes := ← required "nodes" s.nodes
    outputs := ← required "outputs" s.outputs }

def decodeFields (fields : List (String × Json)) : Decoded Model := do
  finish (← fields.foldlM readField {})

def decodeItems (items : List Json) : Decoded Model := do
  let name ← (items[0]?).elim (pure "") Json.asText
  let inputs ← decodeInputs (← record.element items 1)
  let initializers ← (items[2]?).elim (pure []) decodeInitializers
  let nodes ← decodeNodes (← record.element items 3)
  let outputs ← (← record.element items 4).asTexts
  return { name, inputs, initializers, nodes, outputs }

def decode (v : Json) : Decoded Model := record.decode decodeFields decodeItems v

end Model

/-! ## Options -/

namespace Options

def record : RecordShape := ⟨"CompileContext", 1⟩

def readField (quantize : Option Bool) (field : String × Json) : Decoded (Option Bool) := do
  match field with
  | ("quantize", v) => unfilled "quantize" quantize; return some (← v.asBool)
  | _ => return quantize

def decodeFields (fields : List (String × Json)) : Decoded Options := do
  return ⟨(← fields.foldlM readField none).getD false⟩

def decodeItems (items : List Json) : Decoded Options := do
  return ⟨← (items[0]?).elim (pure false) Json.asBool⟩

def decode (v : Json) : Decoded Options := record.decode decodeFields decodeItems v

end Options

/-! ## Documents -/

/-- Decode a whole JSON text. -/
def ofJsonText {α : Type} (decode : Json → Decoded α) (text : String) : Decoded α :=
  match Json.parse? text with
  | some v => decode v
  | none => .error .malformed

def Model.ofText (text : String) : Decoded Model := ofJsonText Model.decode text

def Options.ofText (text : String) : Decoded Options := ofJsonText Options.decode text

/-- An attribute map on its own. -/
def Attributes.ofText (text : String) : Decoded Attributes :=
  ofJsonText (Attributes.decode (nestingLimit - 1)) text

end Stencil
