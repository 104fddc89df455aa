import Stencil.Json.Writer
import Stencil.Model

/-!
# Encoding models

A model as a JSON value, with every field written and the fields of an initializer's
tensor beside its data.
-/

namespace Stencil

def Json.ofTexts (texts : List String) : Json := .array (texts.map .text)

def Json.ofInts (values : List Int) : Json := .array (values.map .int)

def Json.ofSingles (values : List Single) : Json := .array (values.map fun x => .float x.convert)

def Tensor.fields (t : Tensor) : List (String × Json) :=
  [("name", .text t.name), ("dtype", .text t.type.name), ("shape", .ofInts (t.shape.map Int.ofNat))]

def Tensor.encode (t : Tensor) : Json := .object t.fields

def TensorData.encode : TensorData → Json
  | ints values => .ofInts values
  | floats values => .ofSingles values

def AttributeValue.encode : AttributeValue → Json
  | int value => .int value
  | float value => .float value.convert
  | ints values => .ofInts values
  | floats values => .ofSingles values
  | text value => .text value

def Initializer.encode (i : Initializer) : Json :=
  .object (i.tensor.fields ++ [("data", i.data.encode)])

def Attributes.encode (attributes : Attributes) : Json :=
  .object (attributes.map fun (name, value) => (name, value.encode))

def NodeDescription.encode (n : NodeDescription) : Json :=
  .object
    [("op_type", .text n.operatorName), ("name", .text n.name), ("inputs", .ofTexts n.inputs),
     ("outputs", .ofTexts n.outputs), ("attributes", Attributes.encode n.attributes)]

namespace Model

def encode (m : Model) : Json :=
  .object
    [("name", .text m.name), ("inputs", .array (m.inputs.map Tensor.encode)),
     ("initializers", .array (m.initializers.map Initializer.encode)),
     ("nodes", .array (m.nodes.map NodeDescription.encode)), ("outputs", .ofTexts m.outputs)]

/-- The JSON text of a model. -/
def toText (m : Model) : String := m.encode.render

end Model

end Stencil
