import Stencil.Proofs.AttributeOrder
import Stencil.Proofs.Subsampling
import Stencil.Routine.Body

/-!
# Attributes written out

Whatever a node leaves to a default or to a padding policy could as well be written on it. With the values
that it was resolved to as its attributes it is resolved to the same geometry and to the same loops.
-/

namespace Stencil

/-- Sizes as they are written on a node. -/
def Spatial.values (s : Spatial Nat) : List Int := s.toList.map Int.ofNat

theorem positivePair_values {s : Spatial Nat} (h : 0 < s.height ∧ 0 < s.width) (name : String) :
    positivePair name s.values = .ok s :=
  if_pos ⟨Int.ofNat_lt.2 h.1, Int.ofNat_lt.2 h.2⟩

theorem resolveKernel_values {s : Spatial Nat} (h : 0 < s.height ∧ 0 < s.width) :
    resolveKernel s (some s.values) = .ok s := by
  rw [resolveKernel, positivePair_values h, Except.ok_bind, if_pos rfl]
  rfl

namespace Convolution

variable (c : Convolution)

/-- The convolution with its pads given, whatever policy they came from. -/
def withoutPolicy : Convolution := { c with autoPad := .notSet }

/-- All that there is to say about a convolution on its node. -/
def attributes : Attributes :=
  [("kernel_shape", .ints c.kernelShape.values), ("strides", .ints c.strides.values), ("dilations", .ints [1, 1]),
   ("pads", .ints c.pads.values), ("group", .int 1)]

/-- The same, and that there is no policy. -/
def attributesWithPolicy : Attributes := ("auto_pad", .text AutoPad.notSet.name) :: c.attributes

/-- The attributes in one record. -/
def convAttributes : ConvAttributes where
  kernelShape := some c.kernelShape.values
  strides := some c.strides.values
  dilations := some [1, 1]
  pads := some c.pads.values

/-- In any order, with the policy or without, they are read as what they are. -/
theorem ofEntries_attributes (operator : Operator) {entries : Attributes}
    (h : c.attributes.Perm entries ∨ c.attributesWithPolicy.Perm entries) :
    ConvAttributes.ofEntries operator entries = .ok c.convAttributes := by
  have hnodup : (c.attributesWithPolicy.map Prod.fst).Nodup := by
    change ["auto_pad", "kernel_shape", "strides", "dilations", "pads", "group"].Nodup
    decide
  rcases h with h | h
  · exact ConvAttributes.ofEntries_eq_ok_of_perm (List.nodup_cons.1 hnodup).2 h rfl
  · exact ConvAttributes.ofEntries_eq_ok_of_perm hnodup h rfl

end Convolution

def Routine.withoutPolicy (r : Routine) : Routine := { r with convolution := r.convolution.withoutPolicy }

namespace Node

variable {n : Node} {c : Convolution} {entries : Attributes}

/-- What a node asks for is what it gets when it asks for it in full. -/
theorem convolution_of_attributes (h : n.convolution = .ok c)
    (hentries : c.attributes.Perm entries ∨ c.attributesWithPolicy.Perm entries) :
    (n.withAttributes entries).convolution = .ok c.withoutPolicy := by
  have hc : c.Regular := (convolution_eq_ok h).1
  have hread : ConvAttributes.ofEntries n.operator entries = .ok c.convAttributes :=
    c.ofEntries_attributes n.operator hentries
  have hkernel : 0 < c.kernelShape.height ∧ 0 < c.kernelShape.width := ⟨hc.height.kernel_pos, hc.width.kernel_pos⟩
  have hstrides : 0 < c.strides.height ∧ 0 < c.strides.width := ⟨hc.height.stride_pos, hc.width.stride_pos⟩
  obtain ⟨data, weights, a, r, hr, pads, -, -, hchannels, hfits, hresolved⟩ := convolution_eq_ok_iff.1 h
  -- The shapes are the same request. Of the attributes each is checked, and the values pass since `c` is regular.
  let request : ConvRequest := { r with pads := some c.pads.values, autoPad := .notSet, group := 1 }
  have hrequests : (n.withAttributes entries).Requests data weights c.convAttributes request := by
    subst hresolved
    exact { hr with
      attributes_eq := hread
      strides_eq := positivePair_values hstrides "strides"
      dilations_eq := rfl
      kernelShape_eq := resolveKernel_values hkernel
      pads_eq := rfl
      autoPad_eq := rfl
      group_eq := rfl }
  refine convolution_eq_ok_iff.2 ⟨data, weights, _, request, hrequests, c.pads, c.pads.ofValues_values, rfl, hchannels, ?_⟩
  subst hresolved
  exact ⟨hfits, rfl⟩

/-- Apart from the geometry nothing that a node is resolved to depends on its attributes. -/
theorem resolve_withAttributes (hc : n.convolution = .ok c)
    (hc' : (n.withAttributes entries).convolution = .ok c.withoutPolicy) (options : Options) :
    (n.withAttributes entries).resolve options = Routine.withoutPolicy <$> n.resolve options := by
  have hoperator : (n.withAttributes entries).operator = n.operator := rfl
  rw [resolve, resolve, hoperator]
  cases n.operator with
  | conv =>
    simp only [floatRoutine, hc, hc', map_bind, Except.ok_bind, map_pure]
    rfl
  | convInteger =>
    simp only [integerRoutine, hc, hc', map_bind, Except.ok_bind, map_pure]
    rfl

end Node

/-- A node is resolved with its resolved parameters as its attributes, in any order and with the policy that
there is none or without it. The parameters are the same but for the policy, and so are the printed loops. -/
theorem Node.resolve_of_attributes {n : Node} {c : Convolution} (h : n.convolution = .ok c) {entries : Attributes}
    (hentries : c.attributes.Perm entries ∨ c.attributesWithPolicy.Perm entries) :
    (n.withAttributes entries).convolution = .ok c.withoutPolicy ∧
      (∀ (α : Type) (phase : α → C.Listing → C.Listing) (before each after : α) (out : C.Listing),
        (C.Nest.ofConvolution c.withoutPolicy before each after).print phase out =
          (C.Nest.ofConvolution c before each after).print phase out) ∧
      ∀ options r, n.resolve options = .ok r →
        (n.withAttributes entries).resolve options = .ok r.withoutPolicy ∧
          ∀ out, r.withoutPolicy.nest.print C.printStmts out = r.nest.print C.printStmts out := by
  have hexplicit := convolution_of_attributes h hentries
  refine ⟨hexplicit, fun α phase before each after out => rfl, fun options r hr => ⟨?_, fun out => rfl⟩⟩
  rw [resolve_withAttributes h hexplicit, hr]
  rfl

/-- Padded by a policy that puts the odd column first, with a stride on one axis. -/
def lowerNode : Node where
  operator := .convInteger
  name := "lower"
  inputs := [some ⟨"x", .uint8, [1, 1, 5, 6]⟩, some ⟨"w", .int8, [1, 1, 3, 2]⟩]
  outputs := ["y"]
  attributes := [("auto_pad", .text "SAME_LOWER"), ("strides", .ints [2, 1])]

/-- The policy of the node stands for three pads of one. -/
theorem resolve_of_attributes_lowerNode :
    let entries : Attributes := [("group", .int 1), ("pads", .ints [1, 1, 1, 0]), ("dilations", .ints [1, 1]),
      ("strides", .ints [2, 1]), ("kernel_shape", .ints [3, 2])]
    ∃ c, lowerNode.convolution = .ok c ∧ c.autoPad = .sameLower ∧ c.attributes.Perm entries ∧
      (lowerNode.withAttributes entries).convolution = .ok c.withoutPolicy := by
  intro entries
  let c : Convolution := ⟨1, 1, 1, ⟨⟨⟨5, 3, 2, 1⟩, 1, 1⟩, ⟨⟨6, 2, 1, 1⟩, 1, 0⟩⟩, 1, .sameLower⟩
  have hnode : lowerNode.convolution = .ok c := rfl
  have hperm : c.attributes.Perm entries := (List.reverse_perm c.attributes).symm
  exact ⟨c, hnode, rfl, hperm, (Node.resolve_of_attributes hnode (.inl hperm)).1⟩

end Stencil
