/-!
# Compile options
-/

namespace Stencil

structure Options where
  /-- Emit integer convolutions with 8-bit outputs instead of 32-bit sums. -/
  quantize : Bool := false
deriving DecidableEq, Repr

/-- The options with their fields, as they stand in log records. -/
def Options.describe (o : Options) : String :=
  "CompileContext \x7b quantize: " ++ (if o.quantize then "true" else "false") ++ " \x7d"

end Stencil
