import Stencil.Proofs.Building
import Stencil.Proofs.Requirements

/-!
# No faults

A fault has a place among the errors of a node, but the checks before it leave it
unreachable: strides and kernels are positive by the time that pads are computed from them.
No node is refused by a fault, and so no model.
-/

namespace Stencil

/-- The computation does not end in a fault. -/
abbrev Faultless {α : Type} (x : Resolved α) : Prop := x.Avoids ResolveError.fault

/-! ## Checks -/

theorem faultless_positivePair (name : String) (values : List Int) : Faultless (positivePair name values) := by
  unfold positivePair
  split
  next => split <;> nofun
  next => nofun

theorem faultless_resolveStrides (values : Option (List Int)) : Faultless (resolveStrides values) := by
  cases values with
  | none => exact .ok _
  | some values => exact faultless_positivePair _ values

theorem faultless_checkDilations (values : Option (List Int)) : Faultless (checkDilations values) := by
  unfold checkDilations
  split
  next => exact .ok _
  next => split_ifs <;> nofun

theorem faultless_resolveKernel (weights : Spatial Nat) (values : Option (List Int)) :
    Faultless (resolveKernel weights values) := by
  cases values with
  | none => exact .ok _
  | some values =>
    refine (faultless_positivePair _ values).bind fun kernel _ => ?_
    split <;> nofun

theorem ConvAttributes.faultless_ofEntries (operator : Operator) (entries : Attributes) :
    Faultless (ofEntries operator entries) := by
  refine Except.Avoids.foldlM (fun attributes entry _ => ?_) _
  by_cases hknown : Known entry
  · rw [read_of_known hknown]
    exact .ok _
  · obtain ⟨reason, herror⟩ := read_of_not_known hknown
    rw [herror]
    nofun

/-- Strides and kernels without a zero leave no fault to the padding. -/
theorem Pads.faultless_resolve {axes : Spatial Axis} (hkernel : 0 < axes.height.kernel ∧ 0 < axes.width.kernel)
    (hstride : 0 < axes.height.stride ∧ 0 < axes.width.stride)
    (hdilation : axes.height.dilation = 1 ∧ axes.width.dilation = 1)
    (policy : AutoPad) (values : Option (List Int)) : Faultless (resolve policy values axes) := by
  have hsame : ∀ lower, Faultless (same axes lower) := by
    intro lower
    obtain ⟨pads, hpads, -⟩ := Node.same_eq_ok hkernel hstride hdilation lower
    rw [hpads]
    exact .ok _
  unfold resolve
  cases policy with
  | valid => exact .ok _
  | sameUpper => exact hsame false
  | sameLower => exact hsame true
  | notSet =>
    cases values with
    | none => exact .ok _
    | some values =>
      dsimp only [ofValues]
      split
      next => split <;> nofun
      next => nofun

theorem Convolution.faultless_divisor? (c : Convolution) (quantize : Bool) : Faultless (c.divisor? quantize) := by
  unfold divisor? divisor
  split_ifs <;> nofun

/-! ## Nodes -/

namespace Node

variable (n : Node)

theorem faultless_mandatory (input : MandatoryInput) : Faultless (n.mandatory input) := by
  unfold mandatory
  split <;> nofun

theorem faultless_convRequest : Faultless n.convRequest := by
  refine (n.faultless_mandatory .data).bind fun data _ => ?_
  refine (n.faultless_mandatory .weights).bind fun weights _ => ?_
  split
  next =>
    refine (ConvAttributes.faultless_ofEntries _ _).bind fun attributes _ => ?_
    refine (faultless_resolveStrides _).bind fun strides _ => ?_
    refine (faultless_checkDilations _).bind fun _ _ => ?_
    split
    next =>
      split
      next => nofun
      next => exact (faultless_resolveKernel _ _).bind fun _ _ => .ok _
    next => nofun
  next => nofun

theorem faultless_convolution : Faultless n.convolution := by
  refine n.faultless_convRequest.bind fun r hr => ?_
  -- What the padding needs has been checked with the request.
  obtain ⟨_, _, _, hrequests⟩ := convRequest_eq_ok.1 hr
  refine (Pads.faultless_resolve hrequests.kernel_pos (resolveStrides_eq_ok hrequests.strides_eq)
    hrequests.dilation_eq _ _).bind fun pads _ => ?_
  dsimp only
  split_ifs <;> nofun

theorem faultless_checkInputCount (least most : Nat) : Faultless (n.checkInputCount least most) := by
  unfold checkInputCount
  split <;> nofun

theorem faultless_singleOutput : Faultless n.singleOutput := by
  unfold singleOutput
  split <;> nofun

theorem faultless_checkType (accepts : ElementType → Bool) (label : String) (t : Tensor) :
    Faultless (checkType accepts label t) := by
  unfold checkType
  split <;> nofun

theorem faultless_checkBias (channels : Nat) (bias : Option Tensor) : Faultless (checkBias channels bias) := by
  unfold checkBias
  split
  next => exact .ok _
  next => split <;> nofun

theorem faultless_zeroPoint : Faultless n.zeroPoint := by
  unfold zeroPoint
  split <;> nofun

theorem faultless_floatRoutine : Faultless n.floatRoutine := by
  refine (n.faultless_checkInputCount 2 3).bind fun _ _ => ?_
  refine n.faultless_singleOutput.bind fun output _ => ?_
  refine n.faultless_convolution.bind fun c _ => ?_
  refine (n.faultless_mandatory .data).bind fun data _ => ?_
  refine (n.faultless_mandatory .weights).bind fun weights _ => ?_
  refine (faultless_checkType _ _ data).bind fun _ _ => ?_
  refine (faultless_checkType _ _ weights).bind fun _ _ => ?_
  exact (faultless_checkBias _ _).bind fun _ _ => .ok _

theorem faultless_integerRoutine (quantize : Bool) : Faultless (n.integerRoutine quantize) := by
  refine (n.faultless_checkInputCount 2 4).bind fun _ _ => ?_
  refine n.faultless_singleOutput.bind fun output _ => ?_
  refine n.faultless_convolution.bind fun c _ => ?_
  refine n.faultless_zeroPoint.bind fun zero _ => ?_
  refine (n.faultless_mandatory .data).bind fun data _ => ?_
  refine (n.faultless_mandatory .weights).bind fun weights _ => ?_
  refine (faultless_checkType _ _ data).bind fun _ _ => ?_
  refine (faultless_checkType _ _ weights).bind fun _ _ => ?_
  exact (c.faultless_divisor? quantize).bind fun _ _ => .ok _

theorem faultless_resolve (options : Options) : Faultless (n.resolve options) := by
  unfold resolve
  cases n.operator with
  | conv => exact n.faultless_floatRoutine
  | convInteger => exact n.faultless_integerRoutine options.quantize

end Node

/-! ## Builds -/

/-- The fault of a node, as an error of the build. -/
abbrev BuildError.nodeFault (i : String × Fault) : BuildError := .resolve i.1 (.fault i.2)

namespace Registry

variable (r : Registry)

theorem faultless_checkCName (cName name : String) : (r.checkCName cName name).Avoids BuildError.nodeFault := by
  unfold checkCName
  split
  next => split <;> nofun
  next => exact .ok _

theorem faultless_register (t : Tensor) (role : Role) : (r.register t role).Avoids BuildError.nodeFault := by
  have hcheck : (role.check t).Avoids BuildError.nodeFault := by
    unfold Role.check
    split
    next => exact .mapError fun _ _ h => nomatch h
    next => exact .ok _
  unfold register
  split
  next => nofun
  next => exact hcheck.bind fun _ _ => (r.faultless_checkCName _ _).bind fun _ _ => .ok _

theorem faultless_markOutput (name : String) : (r.markOutput name).Avoids BuildError.nodeFault := by
  have hposition : (r.intermediatePosition name).Avoids BuildError.nodeFault := by
    intro i herror
    rcases intermediatePosition_eq_error herror with h | h | h <;> cases h
  exact hposition.bind fun position _ => (r.faultless_checkCName _ _).bind fun _ _ => .ok _

end Registry

namespace BuildState

variable (s : BuildState)

theorem faultless_node (position : Nat) (n : NodeDescription) : (s.node position n).Avoids BuildError.nodeFault := by
  intro i herror
  rcases node_eq_error herror with h | h | ⟨_, -, h⟩ <;> cases h

theorem faultless_routine (options : Options) (position : Nat) (n : NodeDescription) :
    (s.routine options position n).Avoids BuildError.nodeFault := by
  refine (s.faultless_node position n).bind fun node _ => .mapError fun i e h he => ?_
  exact node.faultless_resolve options i.2 (he.trans (congrArg _ (BuildError.resolve.inj h).2))

theorem faultless_apply (options : Options) (step : BuildStep) :
    (s.apply options step).Avoids BuildError.nodeFault := by
  cases step with
  | register t role => exact (s.registry.faultless_register t role).bind fun _ _ => .ok _
  | resolve position n =>
    refine (s.faultless_routine options position n).bind fun r _ => ?_
    exact (s.registry.faultless_register _ _).bind fun _ _ => .ok _
  | markOutput name => exact (s.registry.faultless_markOutput name).bind fun _ _ => .ok _
  | checkFunctions =>
    refine Except.Avoids.bind (.forM fun r _ => ?_) fun _ _ => .ok _
    unfold checkFunction
    split <;> nofun

end BuildState

/-- No model is refused by a fault of one of its nodes. -/
theorem Graph.faultless_build (m : Model) (options : Options) :
    (Graph.build m options).Avoids BuildError.nodeFault :=
  (Except.Avoids.foldlM (fun s step _ => s.faultless_apply options step) _).bind fun _ _ => .ok _

end Stencil
