import Stencil.Proofs.Attributes
import Stencil.Proofs.Geometry

/-!
# Requirements of a convolution

What a node must meet to be resolved as a convolution, one requirement at a time. A node
that meets all of them is accepted; of one that does not, the first requirement that it
misses is reported, whatever else is wrong with it.
-/

namespace Stencil

/-- The requirements, in the order in which they are checked. -/
inductive Requirement where
  | data
  | weights
  | rank
  | attributes
  | strides
  | dilations
  | weightsRank
  | kernel
  | kernelShape
  | pads
  | group
  | channels
  | fit
deriving DecidableEq, Repr

namespace Requirement

def Precedes (p q : Requirement) : Prop := p.ctorIdx < q.ctorIdx

instance (p q : Requirement) : Decidable (p.Precedes q) := inferInstanceAs (Decidable (_ < _))

def ofInput : MandatoryInput → Requirement
  | .data => data
  | .weights => weights

/-- What is read off the tensors and the attributes. -/
def ofRequest : List Requirement :=
  [data, weights, rank, attributes, strides, dilations, weightsRank, kernel, kernelShape]

/-- What depends on the padding. -/
def ofPadding : List Requirement := [pads, group, channels, fit]

theorem mem_inOrder (q : Requirement) : q ∈ ofRequest ++ ofPadding := by
  cases q <;> decide

theorem pairwise_inOrder : (ofRequest ++ ofPadding).Pairwise Precedes := by decide

end Requirement

/-- What a `SAME` policy adds to an axis: as much as the last of `⌈input / stride⌉` kernel
positions lacks. An axis without elements stays empty. -/
def Axis.lack (a : Axis) : Nat :=
  if a.input = 0 then 0 else (a.input ⌈/⌉ a.stride - 1) * a.stride + a.kernel - a.input

namespace Node

variable (n : Node)

/-! ## What a node asks for -/

/-- The size of an input along a dimension, zero if it has none. -/
def size (input : MandatoryInput) (dimension : Nat) : Nat :=
  ((n.input? input.index).map fun t => t.shape.getD dimension 0).getD 0

def ints? (name : String) : Option (List Int) := (n.attributes.find? name).bind AttributeValue.ints?

def groups : Int := ((n.attributes.find? "group").bind AttributeValue.int?).getD 1

def policy : AutoPad :=
  (((n.attributes.find? "auto_pad").bind AttributeValue.text?).bind AutoPad.ofName?).getD .notSet

def strides : Spatial Nat :=
  match n.ints? "strides" with
  | some [height, width] => ⟨height.toNat, width.toNat⟩
  | _ => ⟨1, 1⟩

def axes : Spatial Axis where
  height := ⟨n.size .data 2, n.size .weights 2, n.strides.height, 1⟩
  width := ⟨n.size .data 3, n.size .weights 3, n.strides.width, 1⟩

/-- The padding at both ends of each axis together. Explicit pads count unless there is a policy. -/
def padding : Spatial Nat :=
  match n.policy, n.ints? "pads" with
  | .sameUpper, _ | .sameLower, _ => n.axes.map Axis.lack
  | .notSet, some [top, left, bottom, right] => ⟨(top + bottom).toNat, (left + right).toNat⟩
  | _, _ => ⟨0, 0⟩

/-! ## Requirements -/

def Meets : Requirement → Prop
  | .data => (n.input? 0).isSome
  | .weights => (n.input? 1).isSome
  | .rank => ∀ t, n.input? 0 = some t → t.rank = 4
  | .attributes => ∀ entry ∈ n.attributes, ConvAttributes.Known entry
  | .strides => ∀ values, n.ints? "strides" = some values → values.length = 2 ∧ ∀ v ∈ values, 0 < v
  | .dilations => ∀ values, n.ints? "dilations" = some values → values = [1, 1]
  | .weightsRank => ∀ t, n.input? 1 = some t → t.rank = 4
  | .kernel => 0 < n.size .weights 2 ∧ 0 < n.size .weights 3
  | .kernelShape => ∀ values, n.ints? "kernel_shape" = some values →
      values = [(n.size .weights 2 : Int), (n.size .weights 3 : Int)]
  | .pads => n.policy = .notSet →
      ∀ values, n.ints? "pads" = some values → values.length = 4 ∧ ∀ v ∈ values, 0 ≤ v
  | .group => n.groups = 1
  | .channels => n.size .weights 1 = n.size .data 1
  | .fit => n.size .weights 2 ≤ n.size .data 2 + n.padding.height ∧
      n.size .weights 3 ≤ n.size .data 3 + n.padding.width

/-- The errors that say that a requirement is missed. -/
def Reports : Requirement → ResolveError → Prop
  | .data, e => e = .missingInput .data
  | .weights, e => e = .missingInput .weights
  | .rank, e => ∃ t, n.input? 0 = some t ∧ e = .unsupportedRank t.rank
  | .attributes, e => ∃ entry ∈ n.attributes, ¬ ConvAttributes.Known entry ∧
      ∃ reason, e = .invalidAttribute entry.1 reason
  | .strides, e => ∃ values, n.ints? "strides" = some values ∧
      e = .invalidAttribute "strides" (.notTwoPositive values)
  | .dilations, e => ∃ values, n.ints? "dilations" = some values ∧
      e = if values.length = 2 then .unsupportedDilation values
        else .invalidAttribute "dilations" (.notTwo values)
  | .weightsRank, e => ∃ t, n.input? 1 = some t ∧ e = .invalidShape (.weightsRank t.shape)
  | .kernel, e => ∃ t, n.input? 1 = some t ∧ e = .invalidShape (.emptyKernel t.shape)
  | .kernelShape, e => ∃ reason, e = .invalidAttribute "kernel_shape" reason
  | .pads, e => ∃ reason, e = .invalidAttribute "pads" reason
  | .group, e => e = .unsupportedGrouping n.groups
  | .channels, e => e = .invalidShape (.channels (n.size .weights 1) (n.size .data 1))
  | .fit, e => ∃ kernel input pads, e = .invalidShape (.doesNotFit kernel input pads)

/-- A computation checks requirements in their order: it succeeds, with a result as given, if the
node meets them all, and it reports the first that the node misses. -/
def Judges {α : Type} (requirements : List Requirement) (x : Resolved α) (result : α → Prop) : Prop :=
  match x with
  | .ok a => (∀ q ∈ requirements, n.Meets q) ∧ result a
  | .error e => ∃ met q rest, requirements = met ++ q :: rest ∧ (∀ p ∈ met, n.Meets p) ∧
      ¬ n.Meets q ∧ n.Reports q e

variable {n} {α β : Type} {qs qs' : List Requirement} {q : Requirement} {x : Resolved α}
variable {result : α → Prop} {result' : β → Prop}

/-- The requirements are checks, which a node passes or not. -/
theorem judges_iff : n.Judges qs x result ↔ x.Judged n.Meets n.Reports qs result := by
  cases x <;> exact Iff.rfl

theorem judges_ok {a : α} (h : result a) : n.Judges [] (.ok a) result := judges_iff.2 (.ok h)

/-- A requirement that is met leaves the verdict to the others. -/
theorem Judges.met (hq : n.Meets q) (h : n.Judges qs x result) : n.Judges (q :: qs) x result :=
  judges_iff.2 ((judges_iff.1 h).cons hq)

/-- A requirement that is missed decides the verdict. -/
theorem judges_missed {e : ResolveError} (hq : ¬ n.Meets q) (h : n.Reports q e) :
    n.Judges (q :: qs) (.error e) result := judges_iff.2 (.error hq h)

/-- One check after another. -/
theorem Judges.bind {f : α → Resolved β} (h : n.Judges qs x result)
    (hf : ∀ a, (∀ q ∈ qs, n.Meets q) → result a → n.Judges qs' (f a) result') :
    n.Judges (qs ++ qs') (x >>= f) result' :=
  judges_iff.2 ((judges_iff.1 h).bind fun a hqs ha => judges_iff.1 (hf a hqs ha))

/-! ## Checks -/

theorem judges_mandatory (input : MandatoryInput) :
    n.Judges [.ofInput input] (n.mandatory input) fun t => n.input? input.index = some t := by
  have hmeets : n.Meets (.ofInput input) ↔ (n.input? input.index).isSome := by cases input <;> rfl
  have hreports : n.Reports (.ofInput input) (.missingInput input) := by cases input <;> rfl
  cases hinput : n.input? input.index with
  | some t =>
    have hok : n.mandatory input = .ok t := by simp only [mandatory, hinput]
    rw [hok]
    exact (judges_ok rfl).met (hmeets.2 (by simp [hinput]))
  | none =>
    have herror : n.mandatory input = .error (.missingInput input) := by simp only [mandatory, hinput]
    rw [herror]
    exact judges_missed (hmeets.not.2 (by simp [hinput])) hreports

/-- The attributes in one record. -/
def convAttributes (n : Node) : ConvAttributes where
  kernelShape := n.ints? "kernel_shape"
  strides := n.ints? "strides"
  dilations := n.ints? "dilations"
  pads := n.ints? "pads"
  autoPad := n.policy
  group := n.groups

theorem overlay_attributes (n : Node) : ConvAttributes.overlay {} n.attributes = n.convAttributes := by
  have hints : ∀ o : Option AttributeValue, o.elim none AttributeValue.ints? = o.bind AttributeValue.ints? := by
    intro o
    cases o <;> rfl
  unfold ConvAttributes.overlay convAttributes ints? policy groups
  simp only [hints]
  congr 1
  · cases n.attributes.find? "auto_pad" <;> rfl
  · cases n.attributes.find? "group" <;> rfl

theorem judges_attributes (h : (n.attributes.map Prod.fst).Nodup) :
    n.Judges [.attributes] (ConvAttributes.ofEntries n.operator n.attributes) (· = n.convAttributes) := by
  by_cases hknown : ∀ entry ∈ n.attributes, ConvAttributes.Known entry
  · rw [ConvAttributes.ofEntries, ConvAttributes.foldlM_read_eq_ok hknown h, overlay_attributes]
    exact (judges_ok rfl).met hknown
  · have hunknown : ∃ entry ∈ n.attributes, ¬ ConvAttributes.Known entry := by
      simpa only [not_forall, exists_prop] using hknown
    obtain ⟨entry, hentry, hentryUnknown, reason, herror⟩ : ∃ entry ∈ n.attributes,
        ¬ ConvAttributes.Known entry ∧ ∃ reason, ConvAttributes.ofEntries n.operator n.attributes =
          .error (.invalidAttribute entry.1 reason) :=
      ConvAttributes.foldlM_read_eq_error hunknown
    rw [herror]
    exact judges_missed hknown ⟨entry, hentry, hentryUnknown, reason, rfl⟩

theorem positivePair_eq_error {name : String} {values : List Int}
    (h : ¬ (values.length = 2 ∧ ∀ v ∈ values, 0 < v)) :
    positivePair name values = .error (.invalidAttribute name (.notTwoPositive values)) := by
  unfold positivePair
  split
  next height width => exact if_neg fun hpos => h (by simpa using hpos)
  next => rfl

theorem judges_strides : n.Judges [.strides] (resolveStrides (n.ints? "strides")) (· = n.strides) := by
  cases hvalues : n.ints? "strides" with
  | none => exact (judges_ok (by simp [strides, hvalues])).met (by simp [Meets, hvalues])
  | some values =>
    change n.Judges _ (positivePair "strides" values) _
    have hmeets : n.Meets .strides ↔ values.length = 2 ∧ ∀ v ∈ values, 0 < v := by
      simp [Meets, hvalues]
    by_cases hpair : values.length = 2 ∧ ∀ v ∈ values, 0 < v
    · obtain ⟨height, width, rfl⟩ := List.length_eq_two.1 hpair.1
      have hpos : 0 < height ∧ 0 < width := by simpa using hpair.2
      rw [positivePair, if_pos hpos]
      exact (judges_ok (by simp [strides, hvalues])).met (hmeets.2 hpair)
    · rw [positivePair_eq_error hpair]
      exact judges_missed (hmeets.not.2 hpair) ⟨values, hvalues, rfl⟩

theorem strides_pos (h : n.Meets .strides) : 0 < n.strides.height ∧ 0 < n.strides.width := by
  unfold strides
  split
  next height width hvalues =>
    have hpos : 0 < height ∧ 0 < width := by simpa using (h _ hvalues).2
    exact ⟨Int.lt_toNat.2 hpos.1, Int.lt_toNat.2 hpos.2⟩
  next => exact ⟨Nat.one_pos, Nat.one_pos⟩

theorem judges_dilations :
    n.Judges [.dilations] (checkDilations (n.ints? "dilations")) fun _ => True := by
  cases hvalues : n.ints? "dilations" with
  | none => exact (judges_ok trivial).met (by simp [Meets, hvalues])
  | some values =>
    have hmeets : n.Meets .dilations ↔ values = [1, 1] := by simp [Meets, hvalues]
    rw [checkDilations]
    by_cases hlength : values.length = 2
    · obtain ⟨height, width, rfl⟩ := List.length_eq_two.1 hlength
      by_cases hone : height = 1 ∧ width = 1
      · obtain ⟨rfl, rfl⟩ := hone
        exact (judges_ok trivial).met (hmeets.2 rfl)
      · have hany : [height, width].any (· ≠ 1) := by
          rcases not_and_or.1 hone with hne | hne <;> simp [hne]
        rw [if_neg (not_not_intro hlength), if_pos hany]
        exact judges_missed (hmeets.not.2 (by simpa using hone)) ⟨_, hvalues, rfl⟩
    · rw [if_pos hlength]
      refine judges_missed (hmeets.not.2 ?_) ⟨values, hvalues, (if_neg hlength).symm⟩
      rintro rfl
      exact hlength rfl

/-- The kernel of the weights is not empty, so a kernel shape that equals it is positive. -/
theorem judges_kernelShape (hkernel : n.Meets .kernel) :
    n.Judges [.kernelShape] (resolveKernel ⟨n.size .weights 2, n.size .weights 3⟩ (n.ints? "kernel_shape"))
      (· = ⟨n.size .weights 2, n.size .weights 3⟩) := by
  cases hvalues : n.ints? "kernel_shape" with
  | none => exact (judges_ok rfl).met (by simp [Meets, hvalues])
  | some values =>
    have hmeets : n.Meets .kernelShape ↔ values = [(n.size .weights 2 : Int), (n.size .weights 3 : Int)] := by
      simp [Meets, hvalues]
    rw [resolveKernel]
    by_cases hpair : values.length = 2 ∧ ∀ v ∈ values, 0 < v
    · obtain ⟨height, width, rfl⟩ := List.length_eq_two.1 hpair.1
      have hpos : 0 < height ∧ 0 < width := by simpa using hpair.2
      have heq : (⟨height.toNat, width.toNat⟩ : Spatial Nat) = ⟨n.size .weights 2, n.size .weights 3⟩ ↔
          n.Meets .kernelShape := by
        rw [hmeets]
        simp only [Spatial.mk.injEq, List.cons.injEq, and_true]
        omega
      rw [positivePair, if_pos hpos]
      by_cases hsame : n.Meets .kernelShape
      · have hkernel := heq.2 hsame
        simp only [bind, Except.bind, if_pos hkernel]
        exact (judges_ok hkernel).met hsame
      · simp only [bind, Except.bind, if_neg (heq.not.2 hsame)]
        exact judges_missed hsame ⟨_, rfl⟩
    · rw [positivePair_eq_error hpair]
      refine judges_missed (hmeets.not.2 ?_) ⟨_, rfl⟩
      rintro rfl
      exact hpair ⟨rfl, by simpa [Meets] using hkernel⟩

/-! ## Padding -/

/-- The padding of a `SAME` policy is what the axis lacks, at both ends together. -/
theorem samePads_eq_ok {a : Axis} (hkernel : 0 < a.kernel) (hstride : 0 < a.stride)
    (hdilation : a.dilation = 1) (lower : Bool) :
    ∃ padBegin padEnd, a.samePads lower = .ok (padBegin, padEnd) ∧ padBegin + padEnd = a.lack := by
  have htotal : a.samePadding = a.lack := by
    have hempty : a.input ⌈/⌉ a.stride = 0 ↔ a.input = 0 := by
      rw [← a.sameOutputs_eq, Axis.sameOutputs, Nat.div_eq_zero_iff]
      omega
    rw [Axis.samePadding, Axis.lack, a.sameOutputs_eq, Axis.reach_eq hkernel hdilation]
    simp only [hempty]
  obtain ⟨small, large, hsum, -, -, hupper, hlower⟩ := Axis.samePads_eq_ok hkernel hstride
  rw [htotal] at hsum
  cases lower with
  | false => exact ⟨small, large, hupper, hsum⟩
  | true => exact ⟨large, small, hlower, (Nat.add_comm _ _).trans hsum⟩

/-- Both ends of each axis together have the padding that the node asks for. -/
def Pads.Covers (p : Pads) (padding : Spatial Nat) : Prop :=
  p.begins.height + p.ends.height = padding.height ∧ p.begins.width + p.ends.width = padding.width

theorem same_eq_ok {axes : Spatial Axis} (hkernel : 0 < axes.height.kernel ∧ 0 < axes.width.kernel)
    (hstride : 0 < axes.height.stride ∧ 0 < axes.width.stride)
    (hdilation : axes.height.dilation = 1 ∧ axes.width.dilation = 1) (lower : Bool) :
    ∃ p, Pads.same axes lower = .ok p ∧ Pads.Covers p (axes.map Axis.lack) := by
  obtain ⟨top, bottom, hheight, hcovers⟩ := samePads_eq_ok hkernel.1 hstride.1 hdilation.1 lower
  obtain ⟨left, right, hwidth, hcovers'⟩ := samePads_eq_ok hkernel.2 hstride.2 hdilation.2 lower
  refine ⟨⟨⟨top, left⟩, ⟨bottom, right⟩⟩, ?_, hcovers, hcovers'⟩
  rw [Pads.same, hheight, hwidth]
  rfl

theorem judges_explicitPads (hpolicy : n.policy = .notSet) {values : List Int}
    (hvalues : n.ints? "pads" = some values) :
    n.Judges [.pads] (Pads.ofValues values) (Pads.Covers · n.padding) := by
  have hmeets : n.Meets .pads ↔ values.length = 4 ∧ ∀ v ∈ values, 0 ≤ v := by
    simp [Meets, hpolicy, hvalues]
  unfold Pads.ofValues
  split
  next top left bottom right =>
    by_cases hpos : ∀ v ∈ [top, left, bottom, right], 0 ≤ v
    · have hany : ¬ ([top, left, bottom, right].any (· < 0)) := by simpa using hpos
      rw [if_neg hany]
      refine (judges_ok ?_).met (hmeets.2 ⟨rfl, hpos⟩)
      have hpos' : 0 ≤ top ∧ 0 ≤ left ∧ 0 ≤ bottom ∧ 0 ≤ right := by simpa using hpos
      simp only [Pads.Covers, padding, hpolicy, hvalues]
      omega
    · have hany : [top, left, bottom, right].any (· < 0) := by
        simpa [-not_and, not_and_or] using hpos
      rw [if_pos hany]
      exact judges_missed (hmeets.not.2 fun h => hpos h.2) ⟨_, rfl⟩
  next hlength =>
    refine judges_missed (hmeets.not.2 fun h => ?_) ⟨_, rfl⟩
    obtain ⟨top, left, bottom, right, rfl⟩ := List.length_eq_four.1 h.1
    exact hlength _ _ _ _ rfl

theorem judges_pads (hkernel : n.Meets .kernel) (hstrides : 0 < n.strides.height ∧ 0 < n.strides.width) :
    n.Judges [.pads] (Pads.resolve n.policy (n.ints? "pads") n.axes) (Pads.Covers · n.padding) := by
  have hsame : ∀ lower, ∃ p, Pads.same n.axes lower = .ok p ∧ Pads.Covers p (n.axes.map Axis.lack) :=
    same_eq_ok hkernel hstrides ⟨rfl, rfl⟩
  -- Only without a policy do the pads count that are given.
  cases hpolicy : n.policy with
  | valid => exact (judges_ok (by simp [Pads.Covers, padding, hpolicy, Pads.zero])).met (by simp [Meets, hpolicy])
  | sameUpper =>
    obtain ⟨p, hp, hcovers⟩ := hsame false
    rw [Pads.resolve, hp]
    exact (judges_ok (by simpa [padding, hpolicy] using hcovers)).met (by simp [Meets, hpolicy])
  | sameLower =>
    obtain ⟨p, hp, hcovers⟩ := hsame true
    rw [Pads.resolve, hp]
    exact (judges_ok (by simpa [padding, hpolicy] using hcovers)).met (by simp [Meets, hpolicy])
  | notSet =>
    cases hvalues : n.ints? "pads" with
    | none =>
      exact (judges_ok (by simp [Pads.Covers, padding, hpolicy, hvalues, Pads.zero])).met
        (by simp [Meets, hvalues])
    | some values => exact judges_explicitPads hpolicy hvalues

/-! ## The whole node -/

/-- What a node asks for. -/
def request (n : Node) : ConvRequest where
  batch := n.size .data 0
  channelsIn := n.size .data 1
  channelsOut := n.size .weights 0
  weightsChannels := n.size .weights 1
  axes := n.axes
  pads := n.ints? "pads"
  autoPad := n.policy
  group := n.groups

theorem size_eq {input : MandatoryInput} {t : Tensor} (h : n.input? input.index = some t)
    {shape : List Nat} (hshape : t.shape = shape) (dimension : Nat) :
    n.size input dimension = shape.getD dimension 0 := by
  rw [size, h, ← hshape]
  rfl

theorem judges_convRequest (h : (n.attributes.map Prod.fst).Nodup) :
    n.Judges Requirement.ofRequest n.convRequest (· = n.request) := by
  refine (judges_mandatory .data).bind fun data _ hdata => ?_
  refine (judges_mandatory .weights).bind fun weights _ hweights => ?_
  have hrank : n.Meets .rank ↔ data.rank = 4 := by
    have hinput : n.input? 0 = some data := hdata
    simp [Meets, hinput]
  have hweightsRank : n.Meets .weightsRank ↔ weights.rank = 4 := by
    have hinput : n.input? 1 = some weights := hweights
    simp [Meets, hinput]
  split
  next batch channelsIn height width hshape =>
    refine Judges.met (hrank.2 (by simp [Tensor.rank, hshape])) ?_
    refine (judges_attributes h).bind fun attributes _ hattributes => ?_
    obtain rfl := hattributes
    refine judges_strides.bind fun strides _ hstrides => ?_
    obtain rfl := hstrides
    refine judges_dilations.bind fun _ _ _ => ?_
    split
    next channelsOut weightsChannels kernelHeight kernelWidth hkernelShape =>
      refine Judges.met (hweightsRank.2 (by simp [Tensor.rank, hkernelShape])) ?_
      have hdataSize : ∀ dimension, n.size .data dimension = [batch, channelsIn, height, width].getD dimension 0 :=
        size_eq hdata hshape
      have hweightsSize : ∀ dimension, n.size .weights dimension =
          [channelsOut, weightsChannels, kernelHeight, kernelWidth].getD dimension 0 :=
        size_eq hweights hkernelShape
      have hkernel : n.Meets .kernel ↔ 0 < kernelHeight ∧ 0 < kernelWidth := by
        simp [Meets, hweightsSize]
      by_cases hempty : kernelHeight = 0 ∨ kernelWidth = 0
      · rw [if_pos hempty]
        exact judges_missed (hkernel.not.2 (by omega)) ⟨weights, hweights, rfl⟩
      · rw [if_neg hempty]
        have hmeets : n.Meets .kernel := hkernel.2 (by omega)
        refine Judges.met hmeets ?_
        have hjudges := judges_kernelShape hmeets
        simp only [hweightsSize, List.getD_cons_succ, List.getD_cons_zero] at hjudges
        change n.Judges ([.kernelShape] ++ []) _ _
        refine hjudges.bind fun kernel _ hkernel => ?_
        obtain rfl := hkernel
        refine judges_ok ?_
        simp [request, axes, hdataSize, hweightsSize, convAttributes]
    next hkernelShape =>
      refine judges_missed (hweightsRank.not.2 fun hlength => ?_) ⟨weights, hweights, rfl⟩
      obtain ⟨a, b, c, d, heq⟩ := List.length_eq_four.1 hlength
      exact hkernelShape _ _ _ _ heq
  next hshape =>
    refine judges_missed (hrank.not.2 fun hlength => ?_) ⟨data, hdata, rfl⟩
    obtain ⟨a, b, c, d, heq⟩ := List.length_eq_four.1 hlength
    exact hshape _ _ _ _ heq

theorem judges_resolve (h : ∀ q ∈ Requirement.ofRequest, n.Meets q) :
    n.Judges Requirement.ofPadding n.request.resolve fun _ => True := by
  have hkernel : n.Meets .kernel := h .kernel (by decide)
  refine (judges_pads hkernel (strides_pos (h .strides (by decide)))).bind fun pads _ hpads => ?_
  dsimp only
  by_cases hgroup : n.request.group = 1
  · rw [if_neg (not_not_intro hgroup)]
    refine Judges.met hgroup ?_
    by_cases hchannels : n.request.weightsChannels = n.request.channelsIn
    · rw [if_neg (not_not_intro hchannels)]
      refine Judges.met hchannels ?_
      have hfits : ConvRequest.fits (pads.windows n.request.axes) = true ↔ n.Meets .fit := by
        have hheight : n.axes.height.reach = n.size .weights 2 := Axis.reach_eq hkernel.1 rfl
        have hwidth : n.axes.width.reach = n.size .weights 3 := Axis.reach_eq hkernel.2 rfl
        rw [ConvRequest.fits_iff, Meets, ← hpads.1, ← hpads.2, ← hheight, ← hwidth, ← Nat.add_assoc, ← Nat.add_assoc]
        rfl
      by_cases hfit : n.Meets .fit
      · rw [if_pos (hfits.2 hfit)]
        exact (judges_ok trivial).met hfit
      · rw [if_neg (hfits.not.2 hfit)]
        exact judges_missed hfit ⟨_, _, _, rfl⟩
    · rw [if_pos hchannels]
      exact judges_missed hchannels rfl
  · rw [if_pos hgroup]
    exact judges_missed hgroup rfl

theorem judges_convolution (h : (n.attributes.map Prod.fst).Nodup) :
    n.Judges (Requirement.ofRequest ++ Requirement.ofPadding) n.convolution fun _ => True := by
  refine (judges_convRequest h).bind fun request hmeets hrequest => ?_
  obtain rfl := hrequest
  exact judges_resolve hmeets

/-- A node whose attributes have distinct names is accepted if and only if it meets every
requirement. If it misses some, the error is that of the first one, whatever else it misses. -/
theorem convolution_of_requirements (n : Node) (h : (n.attributes.map Prod.fst).Nodup) :
    ((∃ c, n.convolution = .ok c) ↔ ∀ q, n.Meets q) ∧
      ∀ q, ¬ n.Meets q → (∀ p : Requirement, p.Precedes q → n.Meets p) →
        ∃ e, n.convolution = .error e ∧ n.Reports q e := by
  have hjudges := judges_convolution h
  cases hc : n.convolution with
  | ok c =>
    rw [hc] at hjudges
    have hall : ∀ q, n.Meets q := fun q => hjudges.1 q q.mem_inOrder
    exact ⟨⟨fun _ => hall, fun _ => ⟨c, rfl⟩⟩, fun q hq => absurd (hall q) hq⟩
  | error e =>
    rw [hc] at hjudges
    obtain ⟨met, first, rest, hsplit, hmet, hfirst, hreports⟩ := hjudges
    refine ⟨iff_of_false (by simp) fun hall => hfirst (hall first), fun q hq hbefore => ?_⟩
    -- Neither of two requirements that are first to be missed precedes the other.
    have hsame : q = first := by
      have hmem := q.mem_inOrder
      rw [hsplit, List.mem_append, List.mem_cons] at hmem
      rcases hmem with hmem | heq | hmem
      · exact absurd (hmet q hmem) hq
      · exact heq
      · have hpairwise := Requirement.pairwise_inOrder
        rw [hsplit, List.pairwise_append] at hpairwise
        have hprecedes := List.rel_of_pairwise_cons hpairwise.2.1 hmem
        exact absurd (hbefore first hprecedes) hfirst
    exact ⟨e, rfl, hsame ▸ hreports⟩

end Node

/-- Dilated and grouped, with weights for one-dimensional data and a negative pad. -/
def dilatedNode : Node where
  operator := .conv
  name := "dilated"
  inputs := [some ⟨"x", .float32, [1, 2, 5, 5]⟩, some ⟨"w", .float32, [2, 1, 3]⟩]
  outputs := ["y"]
  attributes := [("group", .int 2), ("pads", .ints [-1]), ("dilations", .ints [1, 2]), ("strides", .ints [2, 1])]

/-- Of all that is wrong with the node, its dilations are reported. -/
theorem convolution_dilatedNode :
    (dilatedNode.attributes.map Prod.fst).Nodup ∧
      dilatedNode.convolution = .error (.unsupportedDilation [1, 2]) := by
  have hnodup : (dilatedNode.attributes.map Prod.fst).Nodup := by decide
  have hdilations : dilatedNode.ints? "dilations" = some [1, 2] := rfl
  have hmissed : ¬ dilatedNode.Meets .dilations := fun h => absurd (h _ hdilations) (by decide)
  have hbefore : ∀ p : Requirement, p.Precedes .dilations → dilatedNode.Meets p := by
    intro p hp
    cases p with
    | data => rfl
    | weights => rfl
    | rank =>
      rintro t ⟨⟩
      rfl
    | attributes =>
      intro entry hentry
      simp only [dilatedNode, List.mem_cons, List.not_mem_nil, or_false] at hentry
      rcases hentry with rfl | rfl | rfl | rfl
      · exact .group 2
      · exact .pads [-1]
      · exact .dilations [1, 2]
      · exact .strides [2, 1]
    | strides =>
      rintro values ⟨⟩
      decide
    | _ => exact absurd hp (by decide)
  obtain ⟨e, he, values, hvalues, rfl⟩ :=
    (Node.convolution_of_requirements dilatedNode hnodup).2 .dilations hmissed hbefore
  obtain rfl := Option.some.inj (hdilations.symm.trans hvalues)
  exact ⟨hnodup, he⟩

end Stencil
