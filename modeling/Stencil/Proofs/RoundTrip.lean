import Mathlib.Algebra.Group.Nat.Defs
import Stencil.Proofs.Decoding
import Stencil.Proofs.Keys
import Stencil.Proofs.Writing

/-!
# Models written and read back

A model is the same after its JSON text has been read, unless floating-point numbers stand in it.
Every field is written and found again, and a value that could be of several kinds is taken for
the kind that it was written from.
-/

namespace Stencil

/-! ## What is written exactly -/

/-- Every size fits in 64 bits. -/
def Tensor.IsExact (t : Tensor) : Prop := ∀ size ∈ t.shape, size < 2 ^ 64

def TensorData.IsExact : TensorData → Prop
  | ints values => ∀ v ∈ values, isLong v
  | floats _ => False

def AttributeValue.IsExact : AttributeValue → Prop
  | int value => isLong value
  | ints values => ∀ v ∈ values, isLong v
  | text _ => True
  | float _ | floats _ => False

/-- One value for each name. -/
def Attributes.IsExact (attributes : Attributes) : Prop :=
  (attributes.map Prod.fst).Nodup ∧ ∀ entry ∈ attributes, entry.2.IsExact

/-- The model has no floating-point numbers, and its integers fit their types. -/
structure Model.IsExact (m : Model) : Prop where
  inputs : ∀ t ∈ m.inputs, t.IsExact
  initializers : ∀ i ∈ m.initializers, i.tensor.IsExact ∧ i.data.IsExact
  attributes : ∀ n ∈ m.nodes, Attributes.IsExact n.attributes

/-! ## Encoded values are exact -/

namespace Json

theorem isExact_array_map {α : Type} {f : α → Json} {l : List α} (h : ∀ a ∈ l, (f a).IsExact) :
    (array (l.map f)).IsExact :=
  .array (List.forall_mem_map.2 h)

theorem isExact_ofTexts (texts : List String) : (ofTexts texts).IsExact :=
  isExact_array_map fun text _ => .text text

theorem isLong_iff {i : Int} : isLong i ↔ -2 ^ 63 ≤ i ∧ i < 2 ^ 63 := by
  simp [isLong]

theorem isExact_int {i : Int} (h : isLong i) : (int i).IsExact := by
  obtain ⟨hleast, hgreatest⟩ := isLong_iff.1 h
  exact .int hleast (by omega)

theorem isExact_ofInts {values : List Int} (h : ∀ v ∈ values, isLong v) : (ofInts values).IsExact :=
  isExact_array_map fun v hv => isExact_int (h v hv)

/-- Sizes may be larger than long integers. -/
theorem isExact_ofSizes {sizes : List Nat} (h : ∀ size ∈ sizes, size < 2 ^ 64) :
    (ofInts (sizes.map Int.ofNat)).IsExact := by
  rw [ofInts, List.map_map]
  refine isExact_array_map fun size hsize => ?_
  have hlt := h size hsize
  exact .int (by simp) (by simp; omega)

end Json

theorem Tensor.IsExact.fields {t : Tensor} (h : t.IsExact) : ∀ field ∈ t.fields, field.2.IsExact := by
  simp only [Tensor.fields, List.forall_mem_cons]
  exact ⟨.text _, .text _, Json.isExact_ofSizes h, nofun⟩

theorem TensorData.IsExact.encode {data : TensorData} (h : data.IsExact) : data.encode.IsExact := by
  cases data with
  | ints values => exact Json.isExact_ofInts h
  | floats values => exact h.elim

theorem AttributeValue.IsExact.encode {v : AttributeValue} (h : v.IsExact) : v.encode.IsExact := by
  cases v with
  | int value => exact Json.isExact_int h
  | ints values => exact Json.isExact_ofInts h
  | text value => exact .text value
  | float value => exact h.elim
  | floats values => exact h.elim

theorem Attributes.IsExact.encode {attributes : Attributes} (h : Attributes.IsExact attributes) :
    (Attributes.encode attributes).IsExact :=
  .object (List.forall_mem_map.2 fun entry hentry => (h.2 entry hentry).encode)

theorem Model.IsExact.encode {m : Model} (h : m.IsExact) : m.encode.IsExact := by
  have hinputs : (Json.array (m.inputs.map Tensor.encode)).IsExact :=
    Json.isExact_array_map fun t ht => .object (h.inputs t ht).fields
  have hinitializers : (Json.array (m.initializers.map Initializer.encode)).IsExact := by
    refine Json.isExact_array_map fun i hi => .object ?_
    obtain ⟨htensor, hdata⟩ := h.initializers i hi
    exact List.forall_mem_append.2 ⟨htensor.fields, List.forall_mem_singleton.2 hdata.encode⟩
  have hnodes : (Json.array (m.nodes.map NodeDescription.encode)).IsExact := by
    refine Json.isExact_array_map fun n hn => .object ?_
    simp only [List.forall_mem_cons]
    exact ⟨.text _, .text _, Json.isExact_ofTexts _, Json.isExact_ofTexts _, (h.attributes n hn).encode, nofun⟩
  refine .object ?_
  simp only [List.forall_mem_cons]
  exact ⟨.text _, hinputs, hinitializers, hnodes, Json.isExact_ofTexts _, nofun⟩

/-! ## Decoding what was encoded -/

namespace Json

theorem asTexts_ofTexts (texts : List String) : (ofTexts texts).asTexts = .ok texts :=
  Except.mapM_map_eq_ok fun _ _ => rfl

theorem asSizes_ofInts (sizes : List Nat) : (ofInts (sizes.map Int.ofNat)).asSizes = .ok sizes := by
  simp only [asSizes, ofInts, asItems, Except.ok_bind, List.map_map]
  exact Except.mapM_map_eq_ok fun n _ => by simp [asSize]

theorem mapM_asLong? {values : List Int} (h : ∀ v ∈ values, isLong v) :
    (values.map Json.int).mapM asLong? = some values := by
  induction values with
  | nil => rfl
  | cons v values ih =>
    rw [List.forall_mem_cons] at h
    simp [asLong?, h.1, ih h.2]

end Json

theorem ElementType.decode_name (type : ElementType) : decode (.text type.name) = .ok type := by
  simp [decode, decodeName, ofName?_name]

theorem ElementType.decodeBuffered_name (type : ElementType) :
    decodeBuffered (.text type.name) = .ok type := by
  simp [decodeBuffered, decodeName, ofName?_name]

/-- The fields of a tensor are those that it was written from, however its type is read. -/
theorem Tensor.decodeFields_fields {type : Json → Decoded ElementType}
    (htype : ∀ t : ElementType, type (.text t.name) = .ok t) (t : Tensor) :
    decodeFields type t.fields = .ok t := by
  simp [decodeFields, fields, TensorSlots.read, unfilled, Json.asText, htype, Json.asSizes_ofInts,
    TensorSlots.finish, required]

theorem Tensor.decode_encode (t : Tensor) : decode t.encode = .ok t :=
  decodeFields_fields ElementType.decode_name t

theorem TensorData.decode_encode {data : TensorData} (h : data.IsExact) :
    decode data.encode = .ok data := by
  cases data with
  | ints values => simp [decode, encode, ofJson?, Json.ofInts, decodeNumbers, Json.mapM_asLong? h]
  | floats values => exact h.elim

theorem AttributeValue.decode_encode {v : AttributeValue} (h : v.IsExact) (levels : Nat) :
    decode (levels + 1) v.encode = .ok v := by
  cases v with
  | int value =>
    have hlong : isLong value := h
    simp [decode, encode, ofJson?, hlong, Json.buffer, Json.isWhole, Json.depth]
  | ints values =>
    simp [decode, encode, Json.buffer_ofInts, ofJson?, decodeNumbers]
    simp [Json.ofInts, Json.mapM_asLong? h]
  | text value => simp [decode, encode, ofJson?, Json.buffer, Json.isWhole, Json.depth]
  | float value => exact h.elim
  | floats values => exact h.elim

/-- The levels that are left are those inside of the map. -/
theorem Attributes.decode_encode {attributes : Attributes} (h : Attributes.IsExact attributes)
    (levels : Nat) : decode (levels + 1) (Attributes.encode attributes) = .ok attributes := by
  have hfold := Except.foldlM_eq_ok_foldl
    (f := fun (built : Attributes) (entry : String × AttributeValue) =>
      (return built.put entry.1 (← AttributeValue.decode (levels + 1) entry.2.encode) : Decoded Attributes))
    (g := fun built entry => built.put entry.1 entry.2) (l := attributes)
    (fun built entry hentry => by rw [AttributeValue.decode_encode (h.2 entry hentry)]; rfl) []
  simp only [decode, encode, List.foldlM_map]
  rw [hfold]
  exact congrArg Except.ok (Association.ofEntries_of_nodup h.1)

theorem NodeDescription.decode_encode {n : NodeDescription} (h : Attributes.IsExact n.attributes) :
    decode n.encode = .ok n := by
  have hattributes : Attributes.decode attributeLevels (Attributes.encode n.attributes) = .ok n.attributes :=
    Attributes.decode_encode h (attributeLevels - 1)
  simp [decode, encode, RecordShape.decode, decodeFields, readField, unfilled, Json.asText,
    Json.asTexts_ofTexts, hattributes, NodeSlots.finish, required]

theorem Initializer.decode_encode {i : Initializer} (h : i.data.IsExact) :
    decode i.encode = .ok i := by
  have hdata : TensorData.decode i.data.encode = .ok i.data := TensorData.decode_encode h
  have hbuffer : i.data.encode.buffer InitializerSlots.levels = .ok () := by
    cases hints : i.data with
    | ints values => exact Json.buffer_ofInts values (InitializerSlots.levels - 1)
    | floats values =>
      rw [hints] at h
      exact h.elim
  have htensor : Tensor.decodeFields ElementType.decodeBuffered i.tensor.fields = .ok i.tensor :=
    Tensor.decodeFields_fields ElementType.decodeBuffered_name i.tensor
  have hshape : ∀ sizes, (Json.ofInts sizes).buffer InitializerSlots.levels = .ok () := fun sizes =>
    Json.buffer_ofInts sizes (InitializerSlots.levels - 1)
  have htext : ∀ text, (Json.text text).buffer InitializerSlots.levels = .ok () := fun _ => rfl
  simp [decode, encode, Tensor.fields, InitializerSlots.read, unfilled, hdata, hbuffer, hshape, htext,
    InitializerSlots.finish, required]
  rw [Tensor.fields] at htensor
  rw [htensor]
  rfl

theorem Model.decode_encode {m : Model} (h : m.IsExact) : decode m.encode = .ok m := by
  have hinputs : decodeInputs (.array (m.inputs.map Tensor.encode)) = .ok m.inputs :=
    Except.mapM_map_eq_ok fun t _ => t.decode_encode
  have hinitializers :
      decodeInitializers (.array (m.initializers.map Initializer.encode)) = .ok m.initializers :=
    Except.mapM_map_eq_ok fun i hi => Initializer.decode_encode (h.initializers i hi).2
  have hnodes : decodeNodes (.array (m.nodes.map NodeDescription.encode)) = .ok m.nodes :=
    Except.mapM_map_eq_ok fun n hn => NodeDescription.decode_encode (h.attributes n hn)
  simp [decode, encode, RecordShape.decode, decodeFields, readField, unfilled, Json.asText, hinputs,
    hinitializers, hnodes, Json.asTexts_ofTexts, finish, required]

/-- A model without floating-point numbers is read back from its text as it was. -/
theorem Model.ofText_toText {m : Model} (h : m.IsExact) : ofText m.toText = .ok m := by
  rw [ofText, ofJsonText, toText, Json.parse?_render h.encode]
  exact decode_encode h

/-- Texts that need escapes and integers at the ends of their ranges. -/
def Model.extremes : Model where
  name := "a\"\\/*\x00\n\x7f é 𝄞"
  inputs := [⟨"", .float32, [2 ^ 64 - 1, 0]⟩]
  initializers := [⟨⟨"w\t", .int64, [2]⟩, .ints [-2 ^ 63, 2 ^ 63 - 1]⟩, ⟨⟨"data", .int8, []⟩, .ints []⟩]
  nodes := [{
    operatorName := "MatMul\x1f"
    inputs := ["", "w\t"]
    outputs := []
    attributes := [("", .int (-2 ^ 63)), ("\r", .ints []), ("axes", .ints [0, 2 ^ 63 - 1]), ("\"", .text "")] }]
  outputs := ["\u2028"]

theorem Model.ofText_toText_extremes :
    extremes.IsExact ∧ ofText extremes.toText = .ok extremes := by
  have hexact : extremes.IsExact := by
    constructor <;> simp only [extremes, Tensor.IsExact, TensorData.IsExact, Attributes.IsExact,
      List.forall_mem_cons] <;> simp [AttributeValue.IsExact, isLong]
  exact ⟨hexact, ofText_toText hexact⟩

end Stencil
