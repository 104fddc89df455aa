import Stencil.Number.FloatText
import Stencil.Text.Quoted

/-!
# JSON values

Integers that fit in 64 bits are kept apart from all other numbers, and objects keep
the order and the repetitions of their fields. A text or number literal that follows
the grammar but has no value is `broken`: it may be skipped but not read.
-/

namespace Stencil

inductive Json where
  | null
  | bool (value : Bool)
  | int (value : Int)
  | float (value : Double)
  | text (value : String)
  | array (items : List Json)
  | object (fields : List (String × Json))
  | broken

namespace Json

/-- The value as it stands in the message about a wrong one. -/
def describe : Json → String
  | null => "null"
  | bool value => "boolean `" ++ (if value then "true" else "false") ++ "`"
  | int value => "integer `" ++ toString value ++ "`"
  | float value => "floating point `" ++ value.render .document ++ "`"
  | text value => "string " ++ quoted value
  | array _ => "sequence"
  | object _ => "map"
  | broken => "nothing"

/-! ## What a buffered value must satisfy -/

mutual

/-- How deeply arrays and objects are nested. -/
def depth : Json → Nat
  | array items => depthOfItems items + 1
  | object fields => depthOfFields fields + 1
  | _ => 0

def depthOfItems : List Json → Nat
  | [] => 0
  | v :: vs => max v.depth (depthOfItems vs)

def depthOfFields : List (String × Json) → Nat
  | [] => 0
  | (_, v) :: fields => max v.depth (depthOfFields fields)

end

mutual

/-- Whether no part of the value is broken. -/
def isWhole : Json → Bool
  | broken => false
  | array items => areWhole items
  | object fields => fieldsAreWhole fields
  | _ => true

def areWhole : List Json → Bool
  | [] => true
  | v :: vs => v.isWhole && areWhole vs

def fieldsAreWhole : List (String × Json) → Bool
  | [] => true
  | (_, v) :: fields => v.isWhole && fieldsAreWhole fields

end

end Json

end Stencil
