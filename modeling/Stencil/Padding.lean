import Stencil.ResolveError
import Stencil.Window

/-!
# Padding

The padding of a convolution is given explicitly or follows a policy. The `SAME`
policies pad each axis just enough for `⌈input / stride⌉` outputs, and differ in the
end that gets the odd element.
-/

namespace Stencil

inductive AutoPad where
  | notSet
  | sameUpper
  | sameLower
  | valid
deriving DecidableEq, Repr

namespace AutoPad

def name : AutoPad → String
  | notSet => "NOTSET"
  | sameUpper => "SAME_UPPER"
  | sameLower => "SAME_LOWER"
  | valid => "VALID"

def ofName? (text : String) : Option AutoPad :=
  [notSet, sameUpper, sameLower, valid].find? (·.name == text)

theorem ofName?_name (policy : AutoPad) : ofName? policy.name = some policy := by
  cases policy <;> rfl

end AutoPad

/-- The padding of both axes, at their beginnings and at their ends. -/
structure Pads where
  begins : Spatial Nat
  ends : Spatial Nat
deriving DecidableEq, Repr

namespace Pads

def zero : Pads := ⟨⟨0, 0⟩, ⟨0, 0⟩⟩

/-- Both beginnings, then both ends. -/
def toList (p : Pads) : List Nat := p.begins.toList ++ p.ends.toList

end Pads

namespace Axis

/-- The number of outputs that a `SAME` policy asks for. -/
def sameOutputs (a : Axis) : Nat := (a.input + a.stride - 1) / a.stride

/-- The least padding of the axis with that many outputs. -/
def samePadding (a : Axis) : Nat :=
  if a.sameOutputs = 0 then 0
  else (a.sameOutputs - 1) * a.stride + a.reach - a.input

/-- The padding of an axis under a `SAME` policy, at its beginning and at its end. -/
def samePads (a : Axis) (lower : Bool) : Except Fault (Nat × Nat) :=
  if a.stride = 0 then .error .divideByZero
  else if a.kernel = 0 then .error .subtractOverflow
  else
    let small := a.samePadding / 2
    let large := a.samePadding - small
    .ok (if lower then (large, small) else (small, large))

def window (a : Axis) (padBegin padEnd : Nat) : Window := { a with padBegin, padEnd }

end Axis

namespace Pads

def same (axes : Spatial Axis) (lower : Bool) : Resolved Pads := do
  let (top, bottom) ← (axes.height.samePads lower).mapError .fault
  let (left, right) ← (axes.width.samePads lower).mapError .fault
  return ⟨⟨top, left⟩, ⟨bottom, right⟩⟩

def ofValues (values : List Int) : Resolved Pads :=
  match values with
  | [top, left, bottom, right] =>
    if values.any (· < 0) then .error (.invalidAttribute "pads" (.negative values))
    else .ok ⟨⟨top.toNat, left.toNat⟩, ⟨bottom.toNat, right.toNat⟩⟩
  | _ => .error (.invalidAttribute "pads" (.notFour values))

/-- The padding of a node. Any policy takes precedence over explicit values. -/
def resolve (policy : AutoPad) (values : Option (List Int)) (axes : Spatial Axis) :
    Resolved Pads :=
  match policy, values with
  | .valid, _ => .ok zero
  | .sameUpper, _ => same axes false
  | .sameLower, _ => same axes true
  | .notSet, none => .ok zero
  | .notSet, some values => ofValues values

/-- Whether explicit values are given in vain. -/
def ignores (policy : AutoPad) (values : Option (List Int)) : Bool :=
  policy != .notSet && values.isSome

/-- The axes with their padding. -/
def windows (p : Pads) (axes : Spatial Axis) : Spatial Window :=
  ⟨axes.height.window p.begins.height p.ends.height,
   axes.width.window p.begins.width p.ends.width⟩

end Pads

end Stencil
