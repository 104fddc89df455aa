import Stencil.Association
import Stencil.Number.FloatText
import Stencil.Text.Lines
import Stencil.Text.Quoted

/-!
# Node attributes

The values that an attribute can have, and reading one as the kind that an operator
expects.
-/

namespace Stencil

inductive AttributeValue where
  | int (value : Int)
  | float (value : Single)
  | ints (values : List Int)
  | floats (values : List Single)
  | text (value : String)
deriving DecidableEq, Repr

/-- The kinds of attribute that operators read. -/
inductive AttributeKind where
  | int
  | ints
  | text
deriving DecidableEq, Repr

def AttributeKind.name : AttributeKind → String
  | int => "int"
  | ints => "ints"
  | text => "string"

def showInts (values : List Int) : String := bracketed (values.map toString)

def showSizes (sizes : List Nat) : String := bracketed (sizes.map toString)

namespace AttributeValue

/-- The value with its kind, as it stands in messages. -/
def describe : AttributeValue → String
  | int value => "Int64(" ++ toString value ++ ")"
  | float value => "Float32(" ++ value.render .literal ++ ")"
  | ints values => "Int64s(" ++ showInts values ++ ")"
  | floats values => "Float32s(" ++ bracketed (values.map (·.render .literal)) ++ ")"
  | text value => "String(" ++ quoted value ++ ")"

def int? : AttributeValue → Option Int
  | int value => some value
  | _ => none

def ints? : AttributeValue → Option (List Int)
  | ints values => some values
  | _ => none

def text? : AttributeValue → Option String
  | text value => some value
  | _ => none

end AttributeValue

/-- The attributes of a node, in no particular order. -/
abbrev Attributes : Type := Association AttributeValue

end Stencil
