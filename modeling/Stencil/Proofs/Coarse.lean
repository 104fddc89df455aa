import Stencil.Proofs.Building
import Stencil.Proofs.Evaluation

/-!
# What a build sees of its tensors

The checks of a build tell integers from floating-point numbers, but not one integer type
from another. Two builds whose tensors differ in nothing else take the same steps with the
same success, whether or not they quantize, as long as every divisor fits.
-/

namespace Stencil

/-! ## Coarse types -/

def ElementType.coarse (t : ElementType) : ElementType := if t.isInt then .int32 else .float32

@[simp] theorem ElementType.isInt_coarse (t : ElementType) : t.coarse.isInt = t.isInt := by
  cases t <;> rfl

theorem ElementType.coarse_eq_float32 {t : ElementType} : t.coarse = .float32 ↔ t = .float32 := by
  cases t <;> decide

/-- A tensor with all integer types taken for one. -/
def Tensor.coarse (t : Tensor) : Tensor := { t with type := t.type.coarse }

theorem Tensor.coarse_eq_coarse {t u : Tensor} :
    t.coarse = u.coarse ↔ t.name = u.name ∧ t.type.coarse = u.type.coarse ∧ t.shape = u.shape := by
  simp [coarse]

def RegisteredTensor.coarse (t : RegisteredTensor) : RegisteredTensor := { t with tensor := t.tensor.coarse }

@[simp] theorem RegisteredTensor.cName_coarse (t : RegisteredTensor) : t.coarse.cName = t.cName := rfl

def Registry.coarse (r : Registry) : Registry := { r with tensors := r.tensors.map RegisteredTensor.coarse }

def Node.coarse (n : Node) : Node := { n with inputs := n.inputs.map (Option.map Tensor.coarse) }

def ZeroPoint.coarse : ZeroPoint → ZeroPoint
  | tensor t => .tensor t.coarse
  | literal value => .literal value

/-- The arithmetic without its rescaling. -/
def Arithmetic.coarse : Arithmetic → Arithmetic
  | float bias => .float (bias.map Tensor.coarse)
  | integer zero _ => .integer zero.coarse none

def Routine.coarse (r : Routine) : Routine :=
  { r with data := r.data.coarse, weights := r.weights.coarse, arithmetic := r.arithmetic.coarse
           output := r.output.coarse }

def Binding.coarse (b : Binding) : Binding := { b with tensor := b.tensor.coarse }

def BuildState.coarse (s : BuildState) : BuildState := ⟨s.registry.coarse, s.routines.map Routine.coarse⟩

/-! ## Registries -/

namespace Registry

variable {r k : Registry}

@[simp] theorem byName_coarse (r : Registry) : r.coarse.byName = r.byName := rfl

@[simp] theorem byCName_coarse (r : Registry) : r.coarse.byCName = r.byCName := rfl

theorem get?_coarse (r : Registry) (name : String) :
    r.coarse.get? name = (r.get? name).map RegisteredTensor.coarse := by
  simp [get?, coarse, Option.map_bind]

theorem getByCName?_coarse (r : Registry) (cName : String) :
    r.coarse.getByCName? cName = (r.getByCName? cName).map RegisteredTensor.coarse := by
  simp [getByCName?, coarse, Option.map_bind]

theorem tensor_coarse (r : Registry) (name : String) :
    r.coarse.tensor name = Tensor.coarse <$> r.tensor name := by
  rw [tensor, tensor, get?_coarse]
  cases r.get? name <;> rfl

theorem checkCName_coarse (r : Registry) (cName name : String) :
    r.coarse.checkCName cName name = r.checkCName cName name := by
  rw [checkCName, checkCName, getByCName?_coarse]
  cases r.getByCName? cName <;> rfl

theorem intermediatePosition_coarse (r : Registry) (name : String) :
    r.coarse.intermediatePosition name = r.intermediatePosition name := by
  have hrole : ∀ position : Nat, (r.coarse.tensors[position]?).map RegisteredTensor.role =
      (r.tensors[position]?).map RegisteredTensor.role := by
    intro position
    simp [coarse, Function.comp_def, RegisteredTensor.coarse]
  unfold intermediatePosition
  simp only [hrole]
  rfl

theorem add_coarse (r : Registry) (t : RegisteredTensor) : (r.add t).coarse = r.coarse.add t.coarse := by
  simp [add, coarse, size, RegisteredTensor.coarse, Tensor.coarse, RegisteredTensor.cName]

theorem promote_coarse (r : Registry) (name : String) (position : Nat) :
    (r.promote name position).coarse = r.coarse.promote name position := by
  have hmodify : (r.tensors.modify position fun t => { t with role := .output }).map RegisteredTensor.coarse =
      (r.tensors.map RegisteredTensor.coarse).modify position fun t => { t with role := .output } := by
    refine List.ext_getElem? fun i => ?_
    simp only [List.getElem?_map, List.getElem?_modify, Option.map_eq_map, Option.map_map]
    split <;> rfl
  simp only [promote, coarse, hmodify]

/-! ### The same calls -/

theorem byName_eq_of_coarse (h : r.coarse = k.coarse) : r.byName = k.byName := by
  rw [← byName_coarse, h, byName_coarse]

theorem byCName_eq_of_coarse (h : r.coarse = k.coarse) : r.byCName = k.byCName := by
  rw [← byCName_coarse, h, byCName_coarse]

theorem tensor_agrees (h : r.coarse = k.coarse) (name : String) :
    Except.Agrees (fun t u => t.coarse = u.coarse) (r.tensor name) (k.tensor name) := by
  have hboth : Tensor.coarse <$> r.tensor name = Tensor.coarse <$> k.tensor name := by
    rw [← tensor_coarse, ← tensor_coarse, h]
  exact .of_map_eq hboth

theorem checkCName_eq_of_coarse (h : r.coarse = k.coarse) (cName name : String) :
    r.checkCName cName name = k.checkCName cName name := by
  rw [← checkCName_coarse, h, checkCName_coarse]

/-- Registering tensors that are alike, in a role whose check accepts both or neither. -/
theorem register_agrees (h : r.coarse = k.coarse) {t u : Tensor} (ht : t.coarse = u.coarse) {role : Role}
    (hcheck : role.check t = role.check u) :
    Except.Agrees (fun r k => r.coarse = k.coarse) (r.register t role) (k.register u role) := by
  have hname : t.name = u.name := (Tensor.coarse_eq_coarse.1 ht).1
  have hregistered : RegisteredTensor.coarse ⟨t, role⟩ = RegisteredTensor.coarse ⟨u, role⟩ := by
    rw [RegisteredTensor.coarse, RegisteredTensor.coarse, ht]
  have hcName : RegisteredTensor.cName ⟨t, role⟩ = RegisteredTensor.cName ⟨u, role⟩ := by
    rw [← RegisteredTensor.cName_coarse, hregistered, RegisteredTensor.cName_coarse]
  unfold register
  rw [byName_eq_of_coarse h, hname, hcheck]
  dsimp only
  rw [hcName, checkCName_eq_of_coarse h]
  split
  next => exact .error _ _
  next =>
    refine (Except.Agrees.of_eq rfl).bind_eq fun _ _ => ?_
    refine (Except.Agrees.of_eq rfl).bind_eq fun _ _ => ?_
    refine .ok ?_
    rw [add_coarse, add_coarse, h, hregistered]

theorem markOutput_agrees (h : r.coarse = k.coarse) (name : String) :
    Except.Agrees (fun r k => r.coarse = k.coarse) (r.markOutput name) (k.markOutput name) := by
  have hposition : r.intermediatePosition name = k.intermediatePosition name := by
    rw [← intermediatePosition_coarse, h, intermediatePosition_coarse]
  unfold markOutput
  rw [hposition, checkCName_eq_of_coarse h]
  refine (Except.Agrees.of_eq rfl).bind_eq fun position _ => ?_
  refine (Except.Agrees.of_eq rfl).bind_eq fun _ _ => .ok ?_
  rw [promote_coarse, promote_coarse, h]

end Registry

/-! ## Nodes -/

namespace Node

variable {n k : Node}

theorem input?_coarse (n : Node) (index : Nat) :
    n.coarse.input? index = (n.input? index).map Tensor.coarse := by
  unfold input? coarse
  rw [List.getElem?_map]
  cases n.inputs[index]? with
  | none => rfl
  | some input => rfl

theorem mandatory_agrees (h : n.coarse = k.coarse) (input : MandatoryInput) :
    Except.Agrees (fun t u => t.coarse = u.coarse) (n.mandatory input) (k.mandatory input) := by
  have hinput : (n.input? input.index).map Tensor.coarse = (k.input? input.index).map Tensor.coarse := by
    rw [← input?_coarse, h, input?_coarse]
  unfold mandatory
  cases hn : n.input? input.index <;> cases hk : k.input? input.index <;> rw [hn, hk] at hinput
  · exact .error _ _
  · cases hinput
  · cases hinput
  · exact .ok (Option.some.inj hinput)

/-- The geometry is read off shapes and attributes. -/
theorem convolution_coarse (n : Node) : n.coarse.convolution = n.convolution := by
  have hmandatory : ∀ input, n.coarse.mandatory input = Tensor.coarse <$> n.mandatory input := by
    intro input
    rw [mandatory, mandatory, input?_coarse]
    cases n.input? input.index <;> rfl
  have hrequest : n.coarse.convRequest = n.convRequest := by
    unfold convRequest
    rw [hmandatory, hmandatory]
    cases n.mandatory .data with
    | error e => rfl
    | ok data =>
      cases n.mandatory .weights with
      | error e => rfl
      | ok weights => rfl
  rw [convolution, convolution, hrequest]

/-! ### Resolution -/

theorem outputs_eq_of_coarse (h : n.coarse = k.coarse) : n.outputs = k.outputs :=
  show n.coarse.outputs = k.coarse.outputs by rw [h]

theorem name_eq_of_coarse (h : n.coarse = k.coarse) : n.name = k.name :=
  show n.coarse.name = k.coarse.name by rw [h]

theorem operator_eq_of_coarse (h : n.coarse = k.coarse) : n.operator = k.operator :=
  show n.coarse.operator = k.coarse.operator by rw [h]

theorem checkInputCount_agrees (h : n.coarse = k.coarse) (least most : Nat) :
    Except.Agrees Eq (n.checkInputCount least most) (k.checkInputCount least most) := by
  have hlength : n.coarse.inputs.length = k.coarse.inputs.length := by rw [h]
  unfold checkInputCount
  rw [show n.inputs.length = k.inputs.length by simpa [coarse] using hlength]
  exact .of_eq rfl

theorem singleOutput_agrees (h : n.coarse = k.coarse) :
    Except.Agrees Eq n.singleOutput k.singleOutput := by
  unfold singleOutput
  rw [outputs_eq_of_coarse h]
  exact .of_eq rfl

theorem convolution_agrees (h : n.coarse = k.coarse) : Except.Agrees Eq n.convolution k.convolution := by
  rw [← convolution_coarse n, h, convolution_coarse]
  exact .of_eq rfl

/-- A check of the element type that does not tell integers apart. -/
theorem checkType_agrees {accepts : ElementType → Bool} (ha : ∀ t : ElementType, accepts t.coarse = accepts t)
    (label : String) {t u : Tensor} (h : t.coarse = u.coarse) :
    Except.Agrees Eq (checkType accepts label t) (checkType accepts label u) := by
  have htype : accepts t.type = accepts u.type := by
    rw [← ha, (Tensor.coarse_eq_coarse.1 h).2.1, ha]
  unfold checkType
  rw [htype]
  split
  next => exact .ok rfl
  next => exact .error _ _

theorem checkBias_eq_of_coarse {channels : Nat} {bias bias' : Option Tensor}
    (h : bias.map Tensor.coarse = bias'.map Tensor.coarse) :
    checkBias channels bias = checkBias channels bias' := by
  cases bias <;> cases bias'
  · rfl
  · cases h
  · cases h
  next t u =>
    have hshape : t.shape = u.shape := (Tensor.coarse_eq_coarse.1 (Option.some.inj h)).2.2
    rw [checkBias, checkBias, Tensor.size, Tensor.size, hshape]

theorem input?_eq_of_coarse (h : n.coarse = k.coarse) (index : Nat) :
    (n.input? index).map Tensor.coarse = (k.input? index).map Tensor.coarse := by
  rw [← input?_coarse, h, input?_coarse]

theorem zeroPoint_agrees (h : n.coarse = k.coarse) :
    Except.Agrees (fun z z' => z.coarse = z'.coarse) n.zeroPoint k.zeroPoint := by
  have h₂ := input?_eq_of_coarse h 2
  have h₃ := input?_eq_of_coarse h 3
  unfold zeroPoint
  cases hn₃ : n.input? 3 <;> cases hk₃ : k.input? 3 <;> rw [hn₃, hk₃] at h₃
  · cases hn₂ : n.input? 2 <;> cases hk₂ : k.input? 2 <;> rw [hn₂, hk₂] at h₂
    · exact .ok rfl
    · cases h₂
    · cases h₂
    · exact .ok (congrArg ZeroPoint.tensor (Option.some.inj h₂))
  · cases h₃
  · cases h₃
  · exact .error _ _

theorem floatRoutine_agrees (h : n.coarse = k.coarse) :
    Except.Agrees (fun r s => r.coarse = s.coarse) n.floatRoutine k.floatRoutine := by
  unfold floatRoutine
  refine (checkInputCount_agrees h 2 3).bind_eq fun _ _ => ?_
  refine (singleOutput_agrees h).bind_eq fun output _ => ?_
  refine (convolution_agrees h).bind_eq fun c _ => ?_
  refine (mandatory_agrees h .data).bind fun data data' _ _ hdata => ?_
  refine (mandatory_agrees h .weights).bind fun weights weights' _ _ hweights => ?_
  have hfloat : ∀ t : ElementType, decide (t.coarse = .float32) = decide (t = .float32) := by
    intro t
    simp only [ElementType.coarse_eq_float32]
  refine (checkType_agrees hfloat _ hdata).bind_eq fun _ _ => ?_
  refine (checkType_agrees hfloat _ hweights).bind_eq fun _ _ => ?_
  have hbias := input?_eq_of_coarse h 2
  dsimp only
  rw [checkBias_eq_of_coarse hbias]
  refine (Except.Agrees.of_eq rfl).bind_eq fun _ _ => .ok ?_
  simp only [Routine.coarse, Arithmetic.coarse, hdata, hweights, hbias, name_eq_of_coarse h]

/-- The flag is seen in the output type and in the divisor only. -/
theorem integerRoutine_agrees (h : n.coarse = k.coarse) (quantize quantize' : Bool)
    (hfit : ∀ c, n.convolution = .ok c → 16 * c.kernelArea ≤ 2 ^ 31 - 1) :
    Except.Agrees (fun r s => r.coarse = s.coarse) (n.integerRoutine quantize)
      (k.integerRoutine quantize') := by
  unfold integerRoutine
  refine (checkInputCount_agrees h 2 4).bind_eq fun _ _ => ?_
  refine (singleOutput_agrees h).bind_eq fun output _ => ?_
  refine (convolution_agrees h).bind_eq fun c hc => ?_
  refine (zeroPoint_agrees h).bind fun zero zero' _ _ hzero => ?_
  refine (mandatory_agrees h .data).bind fun data data' _ _ hdata => ?_
  refine (mandatory_agrees h .weights).bind fun weights weights' _ _ hweights => ?_
  refine (checkType_agrees ElementType.isInt_coarse _ hdata).bind_eq fun _ _ => ?_
  refine (checkType_agrees ElementType.isInt_coarse _ hweights).bind_eq fun _ _ => ?_
  have hdivisor : ∀ quantize, ∃ divisor, c.divisor? quantize = .ok divisor := fun quantize =>
    ⟨_, Convolution.divisor?_eq_ok_iff.2 ⟨fun _ => hfit c hc, rfl⟩⟩
  obtain ⟨divisor, hd⟩ := hdivisor quantize
  obtain ⟨divisor', hd'⟩ := hdivisor quantize'
  rw [hd, hd']
  refine .ok ?_
  have htype : ∀ quantize : Bool, (if quantize then ElementType.int8 else .int32).coarse = .int32 := by decide
  have houtput : ∀ quantize : Bool, Tensor.coarse ⟨output, if quantize then .int8 else .int32, c.outputShape⟩ =
      ⟨output, .int32, c.outputShape⟩ := fun quantize => congrArg (Tensor.mk output · _) (htype quantize)
  simp only [Routine.coarse, Arithmetic.coarse, houtput, hdata, hweights, hzero, name_eq_of_coarse h]

/-- Nodes that are alike are resolved alike, with either flag, if a divisor would fit. -/
theorem resolve_exists_ok (h : n.coarse = k.coarse) {options : Options} {r : Routine}
    (hr : n.resolve options = .ok r)
    (hfit : r.operator = .convInteger → 16 * r.convolution.kernelArea ≤ 2 ^ 31 - 1) (options' : Options) :
    ∃ s, k.resolve options' = .ok s ∧ r.coarse = s.coarse := by
  have hconvolution := (resolve_eq_ok hr).convolution_eq
  unfold resolve at hr ⊢
  rw [← operator_eq_of_coarse h]
  split at hr
  next hoperator => exact (floatRoutine_agrees h).exists_ok hr
  next hoperator =>
    obtain ⟨-, -, -, -, divisor, -, harithmetic⟩ := integerRoutine_eq_ok hr
    have hinteger : r.operator = .convInteger := by
      rw [Routine.operator, harithmetic]
      rfl
    refine (integerRoutine_agrees h _ _ fun c hc => ?_).exists_ok hr
    obtain rfl := Except.ok.inj (hconvolution.symm.trans hc)
    exact hfit hinteger

end Node

/-! ## Steps of a build -/

namespace Routine

variable {r s : Routine}

theorem functionName_eq_of_coarse (h : r.coarse = s.coarse) : r.functionName = s.functionName :=
  show r.coarse.functionName = s.coarse.functionName by rw [h]

end Routine

namespace BuildState

variable {s k : BuildState}

theorem coarse_eq_coarse :
    s.coarse = k.coarse ↔ s.registry.coarse = k.registry.coarse ∧
      List.Forall₂ (fun r r' => r.coarse = r'.coarse) s.routines k.routines := by
  rw [coarse, coarse, mk.injEq, ← List.forall₂_eq_eq_eq, List.forall₂_map_left_iff,
    List.forall₂_map_right_iff]

theorem input_agrees (h : s.registry.coarse = k.registry.coarse) (name : String) :
    Except.Agrees (fun i j => i.map Tensor.coarse = j.map Tensor.coarse) (s.input name) (k.input name) := by
  unfold input
  split
  next => exact .ok rfl
  next => exact (Registry.tensor_agrees h name).map fun _ _ ht => congrArg some ht

theorem node_agrees (h : s.coarse = k.coarse) (position : Nat) (n : NodeDescription) :
    Except.Agrees (fun a b => a.coarse = b.coarse) (s.node position n) (k.node position n) := by
  obtain ⟨hregistry, hroutines⟩ := coarse_eq_coarse.1 h
  have hnames : s.routines.map Routine.name = k.routines.map Routine.name := by
    rw [← List.forall₂_eq_eq_eq, List.forall₂_map_left_iff, List.forall₂_map_right_iff]
    exact hroutines.imp fun r r' hr => show r.coarse.name = r'.coarse.name by rw [hr]
  have hany : (s.routines.any fun r => C.identifier r.name = C.identifier (n.fullName position)) =
      k.routines.any fun r => C.identifier r.name = C.identifier (n.fullName position) := by
    have hmap : ∀ routines : List Routine,
        (routines.any fun r => C.identifier r.name = C.identifier (n.fullName position)) =
          (routines.map Routine.name).any fun name => C.identifier name = C.identifier (n.fullName position) := by
      intro routines
      rw [List.any_map]
      rfl
    rw [hmap, hmap, hnames]
  unfold node
  dsimp only
  rw [hany]
  split
  next => exact .error _ _
  next operator _ =>
    split
    next => exact .error _ _
    next =>
      refine (Except.Agrees.mapM fun name _ => input_agrees hregistry name).bind fun inputs inputs' _ _ hinputs => ?_
      refine .ok ?_
      rw [Node.coarse, Node.coarse, Node.mk.injEq]
      refine ⟨rfl, rfl, ?_, rfl, rfl⟩
      rwa [← List.forall₂_eq_eq_eq, List.forall₂_map_left_iff, List.forall₂_map_right_iff]

theorem routine_exists_ok (h : s.coarse = k.coarse) {options : Options} {position : Nat}
    {n : NodeDescription} {r : Routine} (hr : s.routine options position n = .ok r)
    (hfit : r.operator = .convInteger → 16 * r.convolution.kernelArea ≤ 2 ^ 31 - 1) (options' : Options) :
    ∃ r', k.routine options' position n = .ok r' ∧ r.coarse = r'.coarse := by
  obtain ⟨a, ha, hresolve⟩ := Except.bind_eq_ok.1 hr
  rw [Except.mapError_eq_ok] at hresolve
  obtain ⟨b, hb, hab⟩ := (node_agrees h position n).exists_ok ha
  obtain ⟨r', hr', hcoarse⟩ := Node.resolve_exists_ok hab hresolve hfit options'
  refine ⟨r', ?_, hcoarse⟩
  rw [routine, hb]
  exact Except.mapError_eq_ok.2 hr'

theorem checkFunctions_agrees (h : s.coarse = k.coarse) :
    Except.Agrees Eq (s.routines.forM s.checkFunction) (k.routines.forM k.checkFunction) := by
  obtain ⟨hregistry, hroutines⟩ := coarse_eq_coarse.1 h
  refine Except.Agrees.forM hroutines fun r r' hr => ?_
  have hget : (s.registry.getByCName? r.functionName).map RegisteredTensor.coarse =
      (k.registry.getByCName? r'.functionName).map RegisteredTensor.coarse := by
    rw [← Registry.getByCName?_coarse, hregistry, Registry.getByCName?_coarse,
      Routine.functionName_eq_of_coarse hr]
  unfold checkFunction
  cases hs : s.registry.getByCName? r.functionName <;>
    cases hk : k.registry.getByCName? r'.functionName <;> rw [hs, hk] at hget
  · exact .ok rfl
  · cases hget
  · cases hget
  · exact .error _ _

/-- A step that succeeds does so in any state that is alike, with either flag, if the divisors of
the routines so far would fit. -/
theorem apply_exists_ok (h : s.coarse = k.coarse) {options : Options} {step : BuildStep} {s' : BuildState}
    (hs : s.apply options step = .ok s')
    (hfit : ∀ r ∈ s'.routines, r.operator = .convInteger → 16 * r.convolution.kernelArea ≤ 2 ^ 31 - 1)
    (options' : Options) : ∃ k', k.apply options' step = .ok k' ∧ s'.coarse = k'.coarse := by
  obtain ⟨hregistry, hroutines⟩ := coarse_eq_coarse.1 h
  cases step with
  | register t role =>
    have hregister : Except.Agrees (fun s k => s.coarse = k.coarse) (s.apply options (.register t role))
        (k.apply options' (.register t role)) :=
      (Registry.register_agrees hregistry rfl rfl).bind fun r r' _ _ hr =>
        .ok (coarse_eq_coarse.2 ⟨hr, hroutines⟩)
    exact hregister.exists_ok hs
  | resolve position n =>
    obtain ⟨r, hr, hs⟩ := Except.bind_eq_ok.1 hs
    have hmem : r ∈ s'.routines := by
      obtain ⟨registry, -, hs⟩ := Except.bind_eq_ok.1 hs
      obtain rfl := Except.pure_eq_ok.1 hs
      exact List.mem_append_right _ (List.mem_singleton_self r)
    obtain ⟨r', hr', hcoarse⟩ := routine_exists_ok h hr (hfit r hmem) options'
    have houtput : r.output.coarse = r'.output.coarse := show r.coarse.output = r'.coarse.output by rw [hcoarse]
    have hadd : Except.Agrees (fun s k => s.coarse = k.coarse) (s.addRoutine r) (k.addRoutine r') := by
      refine (Registry.register_agrees hregistry houtput rfl).bind fun registry registry' _ _ h => .ok ?_
      exact coarse_eq_coarse.2 ⟨h, List.rel_append hroutines (.cons hcoarse .nil)⟩
    obtain ⟨k', hk', hsame⟩ := hadd.exists_ok hs
    refine ⟨k', ?_, hsame⟩
    rw [apply, hr']
    exact hk'
  | markOutput name =>
    have hmark : Except.Agrees (fun s k => s.coarse = k.coarse) (s.apply options (.markOutput name))
        (k.apply options' (.markOutput name)) :=
      (Registry.markOutput_agrees hregistry name).bind fun r r' _ _ hr =>
        .ok (coarse_eq_coarse.2 ⟨hr, hroutines⟩)
    exact hmark.exists_ok hs
  | checkFunctions =>
    have hcheck : Except.Agrees (fun s k => s.coarse = k.coarse) (s.apply options .checkFunctions)
        (k.apply options' .checkFunctions) :=
      (checkFunctions_agrees h).bind_eq fun _ _ => .ok h
    exact hcheck.exists_ok hs

/-! ## Runs of a build -/

variable {options : Options} {steps : List BuildStep} {s' : BuildState}

/-- Steps that succeed do so from any state that is alike, with either flag, if the divisors of all
routines in the end would fit. -/
theorem foldlM_exists_ok (h : s.coarse = k.coarse) (hs : steps.foldlM (apply options) s = .ok s')
    (hfit : ∀ r ∈ s'.routines, r.operator = .convInteger → 16 * r.convolution.kernelArea ≤ 2 ^ 31 - 1)
    (options' : Options) : ∃ k', steps.foldlM (apply options') k = .ok k' ∧ s'.coarse = k'.coarse := by
  -- From the end of the list, since the condition is on the routines at the end.
  induction steps using List.reverseRecOn generalizing s' with
  | nil =>
    obtain rfl := Except.pure_eq_ok.1 hs
    exact ⟨k, rfl, h⟩
  | append_singleton steps step ih =>
    rw [List.foldlM_append] at hs ⊢
    obtain ⟨mid, hmid, hs⟩ := Except.bind_eq_ok.1 hs
    rw [List.foldlM_cons] at hs
    obtain ⟨last, hlast, hs⟩ := Except.bind_eq_ok.1 hs
    obtain rfl := Except.pure_eq_ok.1 hs
    have hsubset : mid.routines ⊆ last.routines := by
      rcases routines_apply hlast with hsame | ⟨_, _, -, hadd⟩
      · exact hsame ▸ List.Subset.refl _
      · exact hadd ▸ List.subset_append_left _ _
    obtain ⟨mid', hmid', hcoarse⟩ := ih hmid fun r hr => hfit r (hsubset hr)
    obtain ⟨last', hlast', hcoarse'⟩ := apply_exists_ok hcoarse hlast hfit options'
    refine ⟨last', Except.bind_eq_ok.2 ⟨mid', hmid', ?_⟩, hcoarse'⟩
    exact Except.bind_eq_ok.2 ⟨last', hlast', rfl⟩

end BuildState

namespace Graph

variable {m : Model} {options : Options} {g : Graph}

/-- A model that can be built can be built with either flag, if all divisors would fit. -/
theorem build_exists_ok (h : Graph.build m options = .ok g)
    (hfit : ∀ r ∈ g.routines, r.operator = .convInteger → 16 * r.convolution.kernelArea ≤ 2 ^ 31 - 1)
    (options' : Options) :
    ∃ g', Graph.build m options' = .ok g' ∧ g'.inputs = g.inputs ∧ g'.outputs = g.outputs ∧
      g'.registry.coarse = g.registry.coarse ∧
      List.Forall₂ (fun r r' => r.coarse = r'.coarse) g'.routines g.routines := by
  obtain ⟨s, hs, h⟩ := Except.bind_eq_ok.1 h
  obtain rfl := Except.pure_eq_ok.1 h
  obtain ⟨k, hk, hcoarse⟩ := BuildState.foldlM_exists_ok rfl hs hfit options'
  obtain ⟨hregistry, hroutines⟩ := BuildState.coarse_eq_coarse.1 hcoarse.symm
  exact ⟨_, Except.bind_eq_ok.2 ⟨k, hk, rfl⟩, rfl, rfl, hregistry, hroutines⟩

end Graph

end Stencil
