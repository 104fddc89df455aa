import Stencil.Cell

/-!
# Evaluation

An integer convolution on concrete values. Data, weights and outputs are lists in
row-major order, and what a kernel position covers beyond the data is left out.
-/

namespace Stencil.Convolution

variable (c : Convolution)

/-- Where an element of the data lies in its list. -/
def dataIndex (image channel row column : Nat) : Nat :=
  ((image * c.channelsIn + channel) * c.windows.height.input + row) * c.windows.width.input + column

/-- Where a weight lies in its list. -/
def weightIndex (output channel row column : Nat) : Nat :=
  ((output * c.channelsIn + channel) * c.windows.height.kernel + row)
    * c.windows.width.kernel + column

/-- The pairs of a data index and a weight index whose products make up an output
cell, in the order of channels, kernel rows and kernel columns. -/
def taps (image output row column : Nat) : List (Nat × Nat) :=
  (List.range c.channelsIn).flatMap fun channel =>
    (List.range c.windows.height.kernel).flatMap fun k₀ =>
      match c.windows.height.index? row k₀ with
      | none => []
      | some i₀ =>
        (List.range c.windows.width.kernel).filterMap fun k₁ =>
          (c.windows.width.index? column k₁).map fun i₁ =>
            (c.dataIndex image channel i₀ i₁, c.weightIndex output channel k₀ k₁)

/-- The output cells in row-major order: image, output channel, row and column. -/
def cells : List (Nat × Nat × Nat × Nat) :=
  (List.range c.batch).flatMap fun image =>
    (List.range c.channelsOut).flatMap fun output =>
      (List.range c.outputSizes.height).flatMap fun row =>
        (List.range c.outputSizes.width).map fun column => (image, output, row, column)

/-- Add the product of a data element and a weight to a cell. -/
def accumulateAt (data weights : Array Int32) (zero : Int32) (cell : Cell) (tap : Nat × Nat) :
    Except Fault Cell :=
  match data[tap.1]?, weights[tap.2]? with
  | some x, some w => .ok (cell.accumulate x zero w)
  | _, _ => .error .indexOutOfRange

/-- The value of the output cell that the given taps make up. -/
def evaluateCell (divisor : Option Int32) (data weights : Array Int32) (zero : Int32)
    (taps : List (Nat × Nat)) : Except Fault (Option Int32) := do
  let filled ← taps.foldlM (accumulateAt data weights zero) (Cell.ofDivisor divisor).start
  return (← filled.finalize).value?

/-- The values of all output cells. -/
def evaluate (quantize : Bool) (data weights : List Int32) (zero : Int32) :
    Resolved (List Int32) := do
  let divisor ← c.divisor? quantize
  if data.length ≠ c.dataSize ∨ weights.length ≠ c.weightsSize then
    .error (.invalidShape (.valueCounts c.dataSize c.weightsSize data.length weights.length))
  else
    let values ← (c.cells.mapM fun (image, output, row, column) =>
      evaluateCell divisor data.toArray weights.toArray zero (c.taps image output row column)
      ).mapError .fault
    return values.filterMap id

end Stencil.Convolution
