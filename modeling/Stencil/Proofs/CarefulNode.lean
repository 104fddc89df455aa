import Stencil.Proofs.Requirements
import Stencil.Proofs.Resolution
import Stencil.Proofs.Trap

/-!
# Resolving without a trap

Resolving a node computes on shapes, strides, kernels and pads in steps that could trap. The
checks before each of them exclude that: the rank is checked before a shape is indexed,
strides and kernels are positive before they divide or are decreased, and there is one output
when its name is read.
-/

namespace Stencil

namespace Careful

open Trap

/-! ## Axes -/

/-- The number of kernel positions of an axis, none if the kernel does not fit. -/
def windowSize (w : Window) : Except Trap (Option Nat) := do
  let reach := (← minus w.kernel 1) * w.dilation + 1
  let padded := w.input + w.padBegin + w.padEnd
  if reach ≤ padded then
    return some ((← divide (padded - reach) w.stride) + 1)
  else return none

/-- The padding of the axis with the given number of outputs. -/
def samePadding (a : Axis) (outputs reach : Nat) : Except Trap Nat :=
  if 0 < outputs then do return (← minus outputs 1) * a.stride + reach - a.input
  else return 0

/-- The padding of an axis under a `SAME` policy. -/
def samePads (a : Axis) (lower : Bool) : Except Trap (Nat × Nat) := do
  let outputs ← divideUp a.input a.stride
  let reach := (← minus a.kernel 1) * a.dilation + 1
  let total ← samePadding a outputs reach
  let small ← divide total 2
  let large ← minus total small
  return if lower then (large, small) else (small, large)

/-- An axis by its index, from what is known of both. -/
def axisAt (input kernel strides dilations : List Nat) (i : Nat) : Except Trap Axis := do
  return { input := ← elementAt input i, kernel := ← elementAt kernel i
           stride := ← elementAt strides i, dilation := ← elementAt dilations i }

/-- An axis with its pads; those at the ends come after those at the beginnings. -/
def windowAt (axes : Nat → Except Trap Axis) (pads : List Nat) (i : Nat) : Except Trap Window := do
  return (← axes i).window (← elementAt pads i) (← elementAt pads (i + 2))

theorem windowSize_eq_ok {w : Window} (hkernel : 0 < w.kernel) (hstride : 0 < w.stride) :
    windowSize w = .ok w.size? := by
  unfold windowSize Window.size?
  rw [minus_eq_ok hkernel]
  simp only [divide_eq_ok hstride]
  show (if w.reach ≤ w.padded then _ else _) = _
  split <;> rfl

theorem samePads_eq_ok {a : Axis} (hkernel : 0 < a.kernel) (hstride : 0 < a.stride) (lower : Bool) :
    ∃ pads, samePads a lower = .ok pads ∧ a.samePads lower = .ok pads := by
  have hpadding : samePadding a ((a.input + a.stride - 1) / a.stride) ((a.kernel - 1) * a.dilation + 1) =
      .ok a.samePadding := by
    show samePadding a a.sameOutputs a.reach = _
    unfold samePadding Axis.samePadding
    by_cases hnone : a.sameOutputs = 0
    · rw [if_neg (by omega), if_pos hnone]
      rfl
    · rw [if_pos (by omega), if_neg hnone, minus_eq_ok (by omega)]
      rfl
  refine ⟨_, ?_, by rw [Axis.samePads, if_neg hstride.ne', if_neg hkernel.ne']⟩
  simp only [samePads, divideUp_eq_ok hstride, minus_eq_ok hkernel, hpadding, divide_eq_ok (show 0 < 2 by decide),
    minus_eq_ok (Nat.div_le_self _ _), Except.ok_bind]
  rfl

/-- Only the checks on a node keep its strides from dividing by zero. -/
example : samePads ⟨5, 3, 0, 1⟩ false = .error (.fault .divideByZero) := rfl

/-! ## Padding -/

def explicitPads (values : List Int) : Trapping ResolveError (List Nat) :=
  if values.length ≠ 4 then .error (.invalidAttribute "pads" (.notFour values))
  else if values.any (· < 0) then .error (.invalidAttribute "pads" (.negative values))
  else do
    let top ← elementAt values 0
    let left ← elementAt values 1
    let bottom ← elementAt values 2
    let right ← elementAt values 3
    return [top.toNat, left.toNat, bottom.toNat, right.toNat]

def bothPads (axes : Nat → Except Trap Axis) (lower : Bool) : Except Trap (List Nat) := do
  let (top, bottom) ← samePads (← axes 0) lower
  let (left, right) ← samePads (← axes 1) lower
  return [top, left, bottom, right]

def resolvePads (policy : AutoPad) (values : Option (List Int)) (axes : Nat → Except Trap Axis) :
    Trapping ResolveError (List Nat) :=
  match policy, values with
  | .valid, _ => return [0, 0, 0, 0]
  | .sameUpper, _ => bothPads axes false
  | .sameLower, _ => bothPads axes true
  | .notSet, none => return [0, 0, 0, 0]
  | .notSet, some values => explicitPads values

theorem explicitPads_performs (values : List Int) :
    Performs (explicitPads values) (Pads.toList <$> Pads.ofValues values) := by
  unfold explicitPads
  split
  next hlength =>
    have hvalues : Pads.ofValues values = .error (.invalidAttribute "pads" (.notFour values)) := by
      unfold Pads.ofValues
      split
      next => exact absurd rfl hlength
      next => rfl
    rw [hvalues]
    exact .error _
  next hlength =>
    obtain ⟨top, left, bottom, right, rfl⟩ := List.length_eq_four.1 (not_not.1 hlength)
    simp only [Pads.ofValues]
    split
    next => exact .error _
    next => exact .ok _

theorem bothPads_eq_ok {axes : Nat → Except Trap Axis} {a : Spatial Axis} (hheight : axes 0 = .ok a.height)
    (hwidth : axes 1 = .ok a.width) (hkernel : 0 < a.height.kernel ∧ 0 < a.width.kernel)
    (hstride : 0 < a.height.stride ∧ 0 < a.width.stride) (lower : Bool) :
    ∃ pads : Pads, bothPads axes lower = .ok pads.toList ∧ Pads.same a lower = .ok pads := by
  obtain ⟨⟨top, bottom⟩, hheight', hsame⟩ := samePads_eq_ok hkernel.1 hstride.1 lower
  obtain ⟨⟨left, right⟩, hwidth', hsame'⟩ := samePads_eq_ok hkernel.2 hstride.2 lower
  refine ⟨⟨⟨top, left⟩, ⟨bottom, right⟩⟩, ?_, ?_⟩
  · simp only [bothPads, hheight, hwidth, hheight', hwidth', Except.ok_bind]
    rfl
  · rw [Pads.same, hsame, hsame']
    rfl

theorem resolvePads_performs {axes : Nat → Except Trap Axis} {a : Spatial Axis}
    (hheight : axes 0 = .ok a.height) (hwidth : axes 1 = .ok a.width)
    (hkernel : 0 < a.height.kernel ∧ 0 < a.width.kernel) (hstride : 0 < a.height.stride ∧ 0 < a.width.stride)
    (policy : AutoPad) (values : Option (List Int)) :
    Performs (resolvePads policy values axes) (Pads.toList <$> Pads.resolve policy values a) := by
  have hsame : ∀ lower, Performs (liftM (bothPads axes lower)) (Pads.toList <$> Pads.same a lower) := by
    intro lower
    obtain ⟨pads, hboth, hpads⟩ := bothPads_eq_ok hheight hwidth hkernel hstride lower
    rw [hboth, hpads]
    exact .ok _
  unfold resolvePads Pads.resolve
  cases policy with
  | valid => exact .ok _
  | sameUpper => exact hsame false
  | sameLower => exact hsame true
  | notSet =>
    cases values with
    | none => exact .ok _
    | some values => exact explicitPads_performs values

/-! ## Resolved geometry -/

def axisOf (c : Convolution) (i : Nat) : Except Trap Axis := do
  return { input := ← elementAt c.dataShape (i + 2), kernel := ← elementAt c.kernelShape.toList i
           stride := ← elementAt c.strides.toList i, dilation := ← elementAt c.dilations.toList i }

def windowOf (c : Convolution) (i : Nat) : Except Trap Window := windowAt (axisOf c) c.pads.toList i

def outputSizes (c : Convolution) : Except Trap (Spatial Nat) := do
  let height ← windowSize (← windowOf c 0)
  let width ← windowSize (← windowOf c 1)
  return ⟨height.getD 0, width.getD 0⟩

def outputShape (c : Convolution) : Except Trap (List Nat) := do
  let sizes ← outputSizes c
  return [← elementAt c.dataShape 0, c.channelsOut, sizes.height, sizes.width]

@[simp] theorem windowOf_zero (c : Convolution) : windowOf c 0 = .ok c.windows.height := rfl

@[simp] theorem windowOf_one (c : Convolution) : windowOf c 1 = .ok c.windows.width := rfl

theorem outputSizes_eq_ok {c : Convolution} (h : c.Regular) : outputSizes c = .ok c.outputSizes := by
  simp only [outputSizes, windowOf_zero, windowOf_one, Except.ok_bind,
    windowSize_eq_ok h.height.kernel_pos h.height.stride_pos,
    windowSize_eq_ok h.width.kernel_pos h.width.stride_pos]
  rfl

theorem outputShape_eq_ok {c : Convolution} (h : c.Regular) : outputShape c = .ok c.outputShape := by
  rw [outputShape, outputSizes_eq_ok h]
  rfl

/-! ## Resolving the geometry -/

/-- Fail with the given error if the kernel does not fit in the window. -/
def checkFit (window : Except Trap Window) (e : ResolveError) : Trapping ResolveError Unit := do
  let size ← windowSize (← window)
  if size.isNone then .error e else return ()

/-- Check both axes, one after the other. -/
def checkFits (windows : Nat → Except Trap Window) (e : ResolveError) : Trapping ResolveError Unit :=
  [0, 1].forM fun i => checkFit (windows i) e

/-- The geometry for a kernel and strides: what is left to check and to compute. -/
def geometry (inputShape weightsShape : List Nat) (kernel strides : Spatial Nat)
    (attributes : ConvAttributes) : Trapping ResolveError Convolution := do
  let input := [← elementAt inputShape 2, ← elementAt inputShape 3]
  let axes := axisAt input kernel.toList strides.toList [1, 1]
  let pads ← resolvePads attributes.autoPad attributes.pads axes
  if attributes.group ≠ 1 then .error (.unsupportedGrouping attributes.group)
  else
    let weightsChannels ← elementAt weightsShape 1
    let channels ← elementAt inputShape 1
    if weightsChannels ≠ channels then .error (.invalidShape (.channels weightsChannels channels))
    else
      let unfit := ResolveError.invalidShape (.doesNotFit kernel.toList input pads)
      checkFits (windowAt axes pads) unfit
      let c : Convolution :=
        { batch := ← elementAt inputShape 0, channelsIn := ← elementAt inputShape 1
          channelsOut := ← elementAt weightsShape 0
          windows := ⟨← windowAt axes pads 0, ← windowAt axes pads 1⟩
          group := 1, autoPad := attributes.autoPad }
      -- The output shape is reported.
      let _ ← outputShape c
      return c

/-- The geometry of a convolution node, in the order of its checks. -/
def convolution (n : Node) : Trapping ResolveError Convolution := do
  let data ← n.mandatory .data
  let weights ← n.mandatory .weights
  if data.rank ≠ 4 then .error (.unsupportedRank data.rank)
  else
    let inputShape := [← elementAt data.shape 0, ← elementAt data.shape 1, ← elementAt data.shape 2,
      ← elementAt data.shape 3]
    let attributes ← ConvAttributes.ofEntries n.operator n.attributes
    let strides ← resolveStrides attributes.strides
    checkDilations attributes.dilations
    if weights.rank ≠ 4 then .error (.invalidShape (.weightsRank weights.shape))
    else
      let weightsKernel : Spatial Nat := ⟨← elementAt weights.shape 2, ← elementAt weights.shape 3⟩
      if weightsKernel.height = 0 ∨ weightsKernel.width = 0 then
        .error (.invalidShape (.emptyKernel weights.shape))
      else
        let kernel ← resolveKernel weightsKernel attributes.kernelShape
        geometry inputShape weights.shape kernel strides attributes

theorem checkFit_performs {w : Window} (hkernel : 0 < w.kernel) (hstride : 0 < w.stride) (e : ResolveError) :
    Performs (checkFit (.ok w) e) (if w.size?.isSome then .ok () else .error e) := by
  refine Performs.step rfl (Performs.step (windowSize_eq_ok hkernel hstride) ?_)
  cases w.size? with
  | none => exact .error e
  | some size => exact .ok ()

theorem checkFits_performs {windows : Nat → Except Trap Window} (w : Spatial Window)
    (hheight : windows 0 = .ok w.height) (hwidth : windows 1 = .ok w.width)
    (hkernel : 0 < w.height.kernel ∧ 0 < w.width.kernel)
    (hstride : 0 < w.height.stride ∧ 0 < w.width.stride) (e : ResolveError) :
    Performs (checkFits windows e) (if ConvRequest.fits w then .ok () else .error e) := by
  show Performs (checkFit (windows 0) e >>= fun _ => checkFit (windows 1) e >>= fun _ => pure ()) _
  rw [hheight, hwidth, checkFit_performs hkernel.1 hstride.1, checkFit_performs hkernel.2 hstride.2]
  unfold ConvRequest.fits
  cases w.height.size?.isSome <;> cases w.width.size?.isSome <;> rfl

/-- The axes of an undilated convolution. -/
def undilated (input kernel strides : Spatial Nat) : Spatial Axis :=
  ⟨⟨input.height, kernel.height, strides.height, 1⟩, ⟨input.width, kernel.width, strides.width, 1⟩⟩

theorem geometry_performs {batch channelsIn height width channelsOut weightsChannels : Nat}
    {kernel strides : Spatial Nat} (hkernel : 0 < kernel.height ∧ 0 < kernel.width)
    (hstride : 0 < strides.height ∧ 0 < strides.width) (rest : List Nat) (attributes : ConvAttributes) :
    Performs (geometry [batch, channelsIn, height, width] (channelsOut :: weightsChannels :: rest) kernel
        strides attributes)
      (ConvRequest.resolve
        { batch, channelsIn, channelsOut, weightsChannels
          axes := undilated ⟨height, width⟩ kernel strides
          pads := attributes.pads, autoPad := attributes.autoPad, group := attributes.group }) := by
  unfold geometry ConvRequest.resolve
  refine Performs.step rfl (Performs.step rfl ?_)
  -- The pads are a list here and one pair for each end there.
  refine (resolvePads_performs rfl rfl hkernel hstride _ _).bind_map fun pads _ => ?_
  dsimp only
  split
  next => exact .error _
  next =>
    refine Performs.step rfl (Performs.step rfl ?_)
    split
    next => exact .error _
    next =>
      rw [checkFits_performs (pads.windows (undilated ⟨height, width⟩ kernel strides)) rfl rfl hkernel hstride]
      split
      next hfits =>
        obtain ⟨hheight, hwidth⟩ := ConvRequest.fits_iff.1 hfits
        refine Performs.step (outputShape_eq_ok ?_) (.ok _)
        exact ⟨⟨hkernel.1, hstride.1, rfl, hheight⟩, ⟨hkernel.2, hstride.2, rfl, hwidth⟩, rfl⟩
      next => exact .error _

theorem convolution_performs (n : Node) : Performs (convolution n) n.convolution := by
  unfold convolution Node.convolution Node.convRequest
  simp only [bind_assoc]
  refine (Performs.lift _).bind fun data _ => ?_
  refine (Performs.lift _).bind fun weights _ => ?_
  -- With a rank of four the shapes have every element that is read, and no other rank goes on.
  by_cases hrank : data.rank = 4
  · obtain ⟨batch, channelsIn, height, width, hshape⟩ := List.length_eq_four.1 hrank
    rw [if_neg (not_not.2 hrank)]
    simp only [hshape, bind_assoc]
    refine Performs.step rfl (Performs.step rfl (Performs.step rfl (Performs.step rfl ?_)))
    refine (Performs.lift _).bind fun attributes _ => ?_
    refine (Performs.lift _).bind fun strides hstrides => ?_
    refine (Performs.lift _).bind fun _ _ => ?_
    by_cases hrank' : weights.rank = 4
    · obtain ⟨channelsOut, weightsChannels, kernelHeight, kernelWidth, hkernel⟩ := List.length_eq_four.1 hrank'
      rw [if_neg (not_not.2 hrank')]
      simp only [hkernel]
      refine Performs.step rfl (Performs.step rfl ?_)
      split
      next => exact .error _
      next hpos =>
        simp only [bind_assoc]
        refine (Performs.lift _).bind fun kernel hkernel => ?_
        obtain rfl := resolveKernel_eq_ok hkernel
        rw [not_or] at hpos
        exact geometry_performs ⟨Nat.pos_of_ne_zero hpos.1, Nat.pos_of_ne_zero hpos.2⟩
          (resolveStrides_eq_ok hstrides) _ attributes
    · rw [if_pos hrank']
      split
      next hshape => exact absurd (congrArg List.length hshape) hrank'
      next => exact .error _
  · rw [if_pos hrank]
    split
    next hshape => exact absurd (congrArg List.length hshape) hrank
    next => exact .error _

/-! ## Routines -/

def checkOutputCount (n : Node) : Resolved Unit :=
  if n.outputs.length ≠ 1 then .error (.invalidOutputCount n.outputs.length) else .ok ()

/-- Check the element type of an input, if it is there. -/
def checkInput (n : Node) (accepts : ElementType → Bool) (label : String) (index : Nat) : Resolved Unit :=
  match n.input? index with
  | some t => Node.checkType accepts label t
  | none => .ok ()

def floatRoutine (n : Node) : Trapping ResolveError Routine := do
  n.checkInputCount 2 3
  checkOutputCount n
  let c ← convolution n
  checkInput n (· = .float32) "X: float32" 0
  checkInput n (· = .float32) "W: float32" 1
  let bias := n.input? 2
  Node.checkBias c.channelsOut bias
  let output : Tensor := ⟨← elementAt n.outputs 0, .float32, ← outputShape c⟩
  let data ← n.mandatory .data
  let weights ← n.mandatory .weights
  return { name := n.name, data, weights, convolution := c, arithmetic := .float bias, output }

def integerRoutine (n : Node) (quantize : Bool) : Trapping ResolveError Routine := do
  n.checkInputCount 2 4
  checkOutputCount n
  let c ← convolution n
  let zero ← n.zeroPoint
  checkInput n (·.isInt) "x: integer" 0
  checkInput n (·.isInt) "w: integer" 1
  let divisor ← c.divisor? quantize
  let type := if quantize then .int8 else .int32
  let output : Tensor := ⟨← elementAt n.outputs 0, type, ← outputShape c⟩
  let data ← n.mandatory .data
  let weights ← n.mandatory .weights
  return { name := n.name, data, weights, convolution := c, arithmetic := .integer zero divisor, output }

def resolve (n : Node) (options : Options) : Trapping ResolveError Routine :=
  match n.operator with
  | .conv => floatRoutine n
  | .convInteger => integerRoutine n options.quantize

/-- Counting the outputs before the first of them is read. -/
theorem singleOutput_performs {α : Type} {n : Node} {f : Trapping ResolveError α} {g : String → Resolved α}
    (hfg : ∀ name, n.outputs = [name] → Performs f (g name)) :
    Performs (liftM (checkOutputCount n) >>= fun _ => f) (n.singleOutput >>= g) := by
  unfold checkOutputCount Node.singleOutput
  split
  next hcount =>
    split
    next name hname => exact absurd (congrArg List.length hname) hcount
    next => exact .error _
  next hcount =>
    obtain ⟨name, hname⟩ := List.length_eq_one_iff.1 (not_not.1 hcount)
    simp only [hname]
    exact hfg name hname

theorem floatRoutine_performs (n : Node) : Performs (floatRoutine n) n.floatRoutine := by
  unfold floatRoutine Node.floatRoutine
  refine (Performs.lift _).bind fun _ _ => ?_
  refine singleOutput_performs fun name hname => ?_
  refine (convolution_performs n).bind fun c hc => ?_
  -- A node with a geometry has the two tensors that are looked up again.
  obtain ⟨hregular, data, weights, hdata, hweights, -, -⟩ := Node.convolution_eq_ok hc
  have hdata' : n.mandatory .data = .ok data := Node.mandatory_eq_ok.2 hdata
  have hweights' : n.mandatory .weights = .ok weights := Node.mandatory_eq_ok.2 hweights
  simp only [checkInput, hdata, hweights, hdata', hweights', Except.ok_bind]
  refine (Performs.lift _).bind fun _ _ => ?_
  refine (Performs.lift _).bind fun _ _ => ?_
  refine (Performs.lift _).bind fun _ _ => ?_
  rw [hname, outputShape_eq_ok hregular]
  exact .ok _

theorem integerRoutine_performs (n : Node) (quantize : Bool) :
    Performs (integerRoutine n quantize) (n.integerRoutine quantize) := by
  unfold integerRoutine Node.integerRoutine
  refine (Performs.lift _).bind fun _ _ => ?_
  refine singleOutput_performs fun name hname => ?_
  refine (convolution_performs n).bind fun c hc => ?_
  obtain ⟨hregular, data, weights, hdata, hweights, -, -⟩ := Node.convolution_eq_ok hc
  have hdata' : n.mandatory .data = .ok data := Node.mandatory_eq_ok.2 hdata
  have hweights' : n.mandatory .weights = .ok weights := Node.mandatory_eq_ok.2 hweights
  refine (Performs.lift _).bind fun zero _ => ?_
  simp only [checkInput, hdata, hweights, hdata', hweights', Except.ok_bind]
  refine (Performs.lift _).bind fun _ _ => ?_
  refine (Performs.lift _).bind fun _ _ => ?_
  refine (Performs.lift _).bind fun divisor _ => ?_
  rw [hname, outputShape_eq_ok hregular]
  exact .ok _

theorem resolve_performs (n : Node) (options : Options) :
    Performs (resolve n options) (n.resolve options) := by
  unfold resolve Node.resolve
  cases n.operator with
  | conv => exact floatRoutine_performs n
  | convInteger => exact integerRoutine_performs n options.quantize

end Careful

end Stencil
