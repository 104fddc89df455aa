import Stencil.Graph.Basic

/-!
# Outlines

A short listing of a resolved graph for its author: the tensors with their roles, and
the node functions with their geometry.
-/

namespace Stencil.Graph

def tensorLine (t : RegisteredTensor) : String :=
  t.role.name ++ " " ++ t.tensor.name ++ " (" ++ t.cName ++ "): " ++ t.tensor.type.name ++ " "
    ++ showSizes t.tensor.shape

def routineLine (r : Routine) : String :=
  r.functionName ++ ": " ++ r.operator.name ++ ", kernel "
    ++ showSizes r.convolution.kernelShape.toList ++ ", strides "
    ++ showSizes r.convolution.strides.toList ++ ", pads " ++ showSizes r.convolution.pads.toList
    ++ " -> " ++ r.output.name

def outline (g : Graph) : String :=
  let lines := g.registry.tensors.map tensorLine ++ g.routines.map routineLine
  String.join (lines.map (· ++ "\n"))

end Stencil.Graph
