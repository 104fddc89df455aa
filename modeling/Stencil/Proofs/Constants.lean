import Mathlib.Algebra.BigOperators.Group.List.Basic
import Stencil.Proofs.Decoding
import Stencil.Proofs.Documents
import Stencil.Proofs.RegistryCalls
import Stencil.Proofs.Writing

/-!
# Integer constants, from the text to the registry

The values of an initializer stand in the text of a model as number literals. One of them that is no
integer makes floats of all of them, and the registry refuses floats for an integer type. What is
registered are therefore the integers that were written, or nothing.
-/

namespace Stencil

/-! ## Literals -/

namespace Json

open NumberLiteral

theorem asLong?_eq_some {v : Json} {i : Int} : v.asLong? = some i ↔ v = .int i ∧ isLong i := by
  cases v with
  | int value =>
    by_cases hlong : isLong value
    · simp [asLong?, hlong]
      rintro rfl
      exact hlong
    · simp [asLong?, hlong]
      rintro rfl
      simpa using hlong
  | _ => simp [asLong?]

theorem asLong?_value {n : NumberLiteral} {i : Int} :
    n.value.asLong? = some i ↔ n.IsInteger ∧ isLong i ∧ i = n.intValue := by
  rw [asLong?_eq_some, value_eq_int]
  simp only [isLong, Bool.and_eq_true, decide_eq_true_eq]
  constructor
  · rintro ⟨⟨hinteger, rfl, -⟩, hlong⟩
    exact ⟨hinteger, hlong, rfl⟩
  · rintro ⟨hinteger, hlong, rfl⟩
    exact ⟨⟨hinteger, rfl, hlong.1, by omega⟩, hlong⟩

/-- Every value is a long integer, or none of them is taken for one. -/
theorem mapM_asLong?_value {literals : List NumberLiteral} {values : List Int} :
    (literals.map NumberLiteral.value).mapM asLong? = some values ↔
      (∀ n ∈ literals, n.IsInteger ∧ isLong n.intValue) ∧ values = literals.map intValue := by
  induction literals generalizing values with
  | nil => exact ⟨fun h => ⟨nofun, (Option.some.inj h).symm⟩, fun ⟨_, h⟩ => h ▸ rfl⟩
  | cons n literals ih =>
    simp only [List.map_cons, List.mapM_cons, Option.bind_eq_bind, Option.bind_eq_some_iff, asLong?_value, ih,
      Option.pure_def, Option.some.injEq, List.forall_mem_cons]
    constructor
    · rintro ⟨_, ⟨hinteger, hlong, rfl⟩, _, ⟨hall, rfl⟩, rfl⟩
      exact ⟨⟨⟨hinteger, hlong⟩, hall⟩, rfl⟩
    · rintro ⟨⟨⟨hinteger, hlong⟩, hall⟩, rfl⟩
      exact ⟨_, ⟨hinteger, hlong, rfl⟩, _, ⟨hall, rfl⟩, rfl⟩

/-- Integers that were written are the values that stand for them. -/
theorem array_value {literals : List NumberLiteral}
    (h : ∀ n ∈ literals, n.IsInteger ∧ isLong n.intValue) :
    array (literals.map NumberLiteral.value) = ofInts (literals.map intValue) := by
  rw [ofInts, List.map_map]
  refine congrArg array (List.map_congr_left fun n hn => ?_)
  exact (asLong?_eq_some.1 (asLong?_value.2 ⟨(h n hn).1, (h n hn).2, rfl⟩)).1

end Json

theorem TensorData.decode_eq_ok_ints {items : List Json} {values : List Int} :
    decode (.array items) = .ok (.ints values) ↔ items.mapM Json.asLong? = some values := by
  cases hlongs : items.mapM Json.asLong? with
  | some longs => simp [decode, ofJson?, decodeNumbers, hlongs]
  | none =>
    -- The numbers are floats or nothing, and neither are integers.
    cases hsingles : items.mapM Json.asSingle? <;> simp [decode, ofJson?, decodeNumbers, hlongs, hsingles]

/-- The range of an integer type lies within that of long integers. -/
theorem ElementType.isLong_of_range? {type : ElementType} {least greatest i : Int}
    (htype : type.range? = some (least, greatest)) (hleast : least ≤ i) (hgreatest : i ≤ greatest) :
    isLong i := by
  simp only [isLong, Bool.and_eq_true, decide_eq_true_eq]
  cases type <;> simp only [range?, Option.some.injEq, Prod.mk.injEq, reduceCtorEq] at htype <;> omega

/-! ## Places in a document -/

/-- A model as it is written, with a gap in place of its initializers. -/
inductive ModelFrame where
  | object (before after : List (Option String × Document))
  | array (name inputs : Document) (rest : List Document)

namespace ModelFrame

def fill (initializers : Document) : ModelFrame → Document
  | object before after => .object (before ++ (some "initializers", initializers) :: after)
  | array name inputs rest => .array (name :: inputs :: initializers :: rest)

end ModelFrame

/-- A model as it is written, with a gap in place of the numbers of one initializer. -/
structure DataPlace where
  model : ModelFrame
  /-- The other initializers. -/
  before : List Document
  after : List Document
  /-- The other fields of the initializer. -/
  fieldsBefore : List (Option String × Document)
  fieldsAfter : List (Option String × Document)

namespace DataPlace

/-- The initializer with the given numbers. -/
def initializer (p : DataPlace) (literals : List Json.NumberLiteral) : Document :=
  .object (p.fieldsBefore ++ (some "data", .array (literals.map .number)) :: p.fieldsAfter)

def fill (p : DataPlace) (literals : List Json.NumberLiteral) : Document :=
  p.model.fill (.array (p.before ++ p.initializer literals :: p.after))

end DataPlace

/-! ## What fills a place -/

namespace Json

/-- Names without content break the object, whatever the other fields are. Otherwise a field lies
between those that stand around it. -/
theorem ofNamedFields_middle (before after : List (Option String × Json)) (name : String) :
    (∀ v, ofNamedFields (before ++ (some name, v) :: after) = .broken) ∨
      ∃ before' after', ∀ v,
        ofNamedFields (before ++ (some name, v) :: after) = .object (before' ++ (name, v) :: after') := by
  simp only [ofNamedFields_eq]
  cases hbefore : before.mapM fun field : Option String × Json => field.1.map (·, field.2) with
  | none =>
    refine .inl fun v => ?_
    simp [hbefore]
  | some before' =>
    cases hafter : after.mapM fun field : Option String × Json => field.1.map (·, field.2) with
    | none =>
      refine .inl fun v => ?_
      simp [hbefore, hafter]
    | some after' =>
      refine .inr ⟨before', after', fun v => ?_⟩
      simp [hbefore, hafter]

end Json

namespace Document

theorem values_eq_map (ds : List Document) : values ds = ds.map value := by
  induction ds with
  | nil => rfl
  | cons d ds ih => simp [values, ih]

theorem fieldValues_append (fields fields' : List (Option String × Document)) :
    fieldValues (fields ++ fields') = fieldValues fields ++ fieldValues fields' := by
  induction fields with
  | nil => rfl
  | cons field fields ih => simp [fieldValues, ih]

end Document

/-- Whatever stands in place of a field, the object is decoded, if at all, from the fields that stand
around it. -/
theorem Document.value_object_middle {α : Type} {decode : Json → Decoded α} {a : α}
    (hbroken : ∀ a, decode .broken ≠ .ok a) {before after : List (Option String × Document)} {name : String}
    {d₀ : Document} (h : decode (object (before ++ (some name, d₀) :: after)).value = .ok a) :
    ∃ before' after', ∀ d : Document,
      (object (before ++ (some name, d) :: after)).value = .object (before' ++ (name, d.value) :: after') := by
  have hvalue : ∀ d, (object (before ++ (some name, d) :: after)).value =
      .ofNamedFields (fieldValues before ++ (some name, d.value) :: fieldValues after) := by
    intro d
    rw [value, fieldValues_append, fieldValues]
  rcases Json.ofNamedFields_middle (fieldValues before) (fieldValues after) name with hnone | hsome
  · rw [hvalue, hnone] at h
    exact absurd h (hbroken a)
  · obtain ⟨before', after', hsome⟩ := hsome
    exact ⟨before', after', fun d => by rw [hvalue, hsome]⟩

/-- Other initializers in a model leave the rest of it as it is. -/
theorem ModelFrame.decode_fill {frame : ModelFrame} {d₀ : Document} {m₀ : Model}
    (h : Model.decode (frame.fill d₀).value = .ok m₀) (d : Document) (m : Model) :
    Model.decode (frame.fill d).value = .ok m ↔
      ∃ initializers, Model.decodeInitializers d.value = .ok initializers ∧ m = { m₀ with initializers } := by
  cases frame with
  | object before after =>
    have hbroken : ∀ m, Model.decode .broken ≠ .ok m := by
      simp [Model.decode, RecordShape.decode, Json.mismatch]
    obtain ⟨before', after', hvalue⟩ := Document.value_object_middle hbroken h
    simp only [fill] at h ⊢
    rw [hvalue] at h ⊢
    exact Model.decode_initializers_eq_ok h d.value m
  | array name inputs rest =>
    simp only [fill, Document.value, Document.values] at h ⊢
    exact Model.decode_array_eq_ok h d.value m

namespace DataPlace

variable {p : DataPlace} {literals₀ literals : List Json.NumberLiteral} {m₀ : Model} {i₀ : Initializer}

theorem decodeInitializers_array (p : DataPlace) (literals : List Json.NumberLiteral) :
    Model.decodeInitializers (Document.array (p.before ++ p.initializer literals :: p.after)).value =
      (p.before.map Document.value ++ (p.initializer literals).value :: p.after.map Document.value).mapM
        Initializer.decode := by
  rw [Document.value, Document.values_eq_map, List.map_append, List.map_cons]
  rfl

/-- Other numbers in an initializer leave the rest of the model as it is. -/
theorem decode_fill (literals : List Json.NumberLiteral) (h : Model.decode (p.fill literals₀).value = .ok m₀)
    (hi : m₀.initializers[p.before.length]? = some i₀) :
    Initializer.decode (p.initializer literals₀).value = .ok i₀ ∧
      ∀ m, Model.decode (p.fill literals).value = .ok m ↔
        ∃ i, Initializer.decode (p.initializer literals).value = .ok i ∧
          m = { m₀ with initializers := m₀.initializers.set p.before.length i } := by
  -- First the frame around the initializers, then the others among them.
  obtain ⟨initializers, hinitializers, hm₀⟩ := (ModelFrame.decode_fill h _ m₀).1 h
  obtain rfl : m₀.initializers = initializers := congrArg Model.initializers hm₀
  rw [decodeInitializers_array] at hinitializers
  obtain ⟨i, hdecode, hget, hother⟩ := Except.mapM_middle_eq_ok hinitializers
  rw [List.length_map] at hget hother
  obtain rfl := Option.some.inj (hi.symm.trans hget)
  refine ⟨hdecode, fun m => ?_⟩
  rw [fill, ModelFrame.decode_fill h, decodeInitializers_array]
  simp only [hother]
  constructor
  · rintro ⟨_, ⟨i, hi, rfl⟩, rfl⟩
    exact ⟨i, hi, rfl⟩
  · rintro ⟨i, hi, rfl⟩
    exact ⟨_, ⟨i, hi, rfl⟩, rfl⟩

/-- The fields around the numbers make up the tensor. -/
theorem decode_initializer (h : Initializer.decode (p.initializer literals₀).value = .ok i₀)
    (i : Initializer) :
    Initializer.decode (p.initializer literals).value = .ok i ↔
      (Json.array (literals.map (·.value))).buffer InitializerSlots.levels = .ok () ∧
        ∃ data, TensorData.decode (.array (literals.map (·.value))) = .ok data ∧ i = ⟨i₀.tensor, data⟩ := by
  have hbroken : ∀ i, Initializer.decode .broken ≠ .ok i := by
    simp [Initializer.decode, Json.mismatch]
  have hnumbers : ∀ literals : List Json.NumberLiteral,
      (Document.array (literals.map .number)).value = .array (literals.map (·.value)) := by
    intro literals
    rw [Document.value, Document.values_eq_map, List.map_map]
    exact congrArg Json.array (List.map_congr_left fun n _ => by simp [Document.value])
  obtain ⟨before, after, hvalue⟩ := Document.value_object_middle hbroken h
  rw [initializer, hvalue] at h
  rw [initializer, hvalue, hnumbers]
  exact Initializer.decode_data_eq_ok h _ i

/-- As integers the numbers are decoded if each of them is one. -/
theorem decode_initializer_ints (h : Initializer.decode (p.initializer literals₀).value = .ok i₀)
    {i : Initializer} {values : List Int} :
    (Initializer.decode (p.initializer literals).value = .ok i ∧ i.data = .ints values) ↔
      (∀ n ∈ literals, n.IsInteger ∧ isLong n.intValue) ∧ values = literals.map (·.intValue) ∧
        i = ⟨i₀.tensor, .ints values⟩ := by
  rw [decode_initializer h]
  constructor
  · rintro ⟨⟨-, data, hdata, rfl⟩, rfl⟩
    obtain ⟨hall, rfl⟩ := Json.mapM_asLong?_value.1 (TensorData.decode_eq_ok_ints.1 hdata)
    exact ⟨hall, rfl, rfl⟩
  · rintro ⟨hall, rfl, rfl⟩
    have hbuffer : (Json.array (literals.map (·.value))).buffer InitializerSlots.levels = .ok () := by
      rw [Json.array_value hall]
      exact Json.buffer_ofInts _ (InitializerSlots.levels - 1)
    exact ⟨⟨hbuffer, _, TensorData.decode_eq_ok_ints.2 (Json.mapM_asLong?_value.2 ⟨hall, rfl⟩), rfl⟩, rfl⟩

end DataPlace

/-! ## What fits a tensor -/

theorem TensorData.fits_iff_of_range? {t : Tensor} {data : TensorData} {least greatest : Int}
    (htype : t.type.range? = some (least, greatest)) :
    data.Fits t ↔
      ∃ values, data = .ints values ∧ values.length = t.size ∧ ∀ v ∈ values, least ≤ v ∧ v ≤ greatest := by
  cases data with
  | ints values => simp [Fits, htype, TensorData.length]
  | floats values =>
    have hfloat : t.type ≠ .float32 := by
      rw [Ne, ← ElementType.range?_eq_none, htype]
      exact Option.some_ne_none _
    simp [Fits, hfloat]

/-- The numbers are decoded to values that fit the tensor if there are as many of them as it has
elements, each of them an integer of its type. -/
theorem DataPlace.decode_initializer_fits {p : DataPlace} {literals₀ literals : List Json.NumberLiteral}
    {i₀ i : Initializer} {least greatest : Int}
    (h : Initializer.decode (p.initializer literals₀).value = .ok i₀)
    (htype : i₀.tensor.type.range? = some (least, greatest)) :
    (Initializer.decode (p.initializer literals).value = .ok i ∧ i.data.Fits i.tensor) ↔
      (literals.length = i₀.tensor.shape.prod ∧
          ∀ n ∈ literals, n.IsInteger ∧ least ≤ n.intValue ∧ n.intValue ≤ greatest) ∧
        i = ⟨i₀.tensor, .ints (literals.map (·.intValue))⟩ := by
  constructor
  · rintro ⟨hdecode, hfits⟩
    obtain ⟨-, data, -, rfl⟩ := (decode_initializer h i).1 hdecode
    -- Floats do not fit, so the numbers have been decoded as integers.
    obtain ⟨_, rfl, hlength, hrange⟩ := (TensorData.fits_iff_of_range? htype).1 hfits
    obtain ⟨hall, rfl, -⟩ := (decode_initializer_ints h).1 ⟨hdecode, rfl⟩
    rw [List.length_map] at hlength
    exact ⟨⟨hlength, fun n hn => ⟨(hall n hn).1, hrange _ (List.mem_map_of_mem hn)⟩⟩, rfl⟩
  · rintro ⟨⟨hlength, hall⟩, rfl⟩
    have hlong : ∀ n ∈ literals, n.IsInteger ∧ isLong n.intValue := fun n hn =>
      ⟨(hall n hn).1, ElementType.isLong_of_range? htype (hall n hn).2.1 (hall n hn).2.2⟩
    refine ⟨((decode_initializer_ints h).2 ⟨hlong, rfl, rfl⟩).1, ?_⟩
    refine (TensorData.fits_iff_of_range? htype).2 ⟨_, rfl, (List.length_map _).trans hlength, ?_⟩
    exact List.forall_mem_map.2 fun n hn => (hall n hn).2

/-! ## Registering -/

/-- The text is that of a model, and the registry takes the initializer at the given position of it. -/
def Registry.Takes (r : Registry) (text : String) (position : Nat) (r' : Registry) : Prop :=
  ∃ m i, Model.ofText text = .ok m ∧ m.initializers[position]? = some i ∧
    r.register i.tensor (.initializer i.data) = .ok r'

/-- The registry takes the one initializer that fills the place. -/
theorem Registry.takes_iff {p : DataPlace} {literals : List Json.NumberLiteral} {m : Model}
    {i : Initializer} {r r' : Registry} {text : String} (hwritten : (p.fill literals).Written text)
    (hform : Model.decode (p.fill []).value = .ok m) (hi : m.initializers[p.before.length]? = some i) :
    r.Takes text p.before.length r' ↔
      ∃ i', Initializer.decode (p.initializer literals).value = .ok i' ∧
        r.register i'.tensor (.initializer i'.data) = .ok r' := by
  have hparse : Model.ofText text = Model.decode (p.fill literals).value := by
    rw [Model.ofText, ofJsonText, Document.parse?_of_written hwritten]
  obtain ⟨hlt, -⟩ := List.getElem?_eq_some_iff.1 hi
  have hget : ∀ i', (m.initializers.set p.before.length i')[p.before.length]? = some i' := by
    intro i'
    rw [List.getElem?_set_self hlt]
  unfold Takes
  simp only [hparse, (DataPlace.decode_fill literals hform hi).2]
  constructor
  · rintro ⟨_, i', ⟨_, hdecode, rfl⟩, hi', hregister⟩
    obtain rfl := Option.some.inj ((hget _).symm.trans hi')
    exact ⟨_, hdecode, hregister⟩
  · rintro ⟨i', hdecode, hregister⟩
    exact ⟨_, i', ⟨i', hdecode, rfl⟩, hget i', hregister⟩

/-- A model of one initializer, of two elements. -/
def DataPlace.pair : DataPlace where
  model := .array (.text (some "")) (.array []) [.array [], .array []]
  before := []
  after := []
  fieldsBefore := [(some "name", .text (some "w")), (some "dtype", .text (some "int8"))]
  fieldsAfter := [(some "shape", .array [.number ⟨false, [2], none, none⟩])]

/-- The model with the least and the greatest value of the type. -/
def DataPlace.pairText : String :=
  "[\"\",[],[\x7b\"name\":\"w\",\"dtype\":\"int8\",\"data\":[-128,127],\"shape\":[2]\x7d],[],[]]"

open Json Document in
theorem DataPlace.written_pair :
    (pair.fill [⟨true, [1, 2, 8], none, none⟩, ⟨false, [1, 2, 7], none, none⟩]).Written pairText := by
  have htext : ∀ text, Padded (TextSpelled (some text)) (encodeText text.toList) := fun text =>
    padded_of_spelled (textSpelled_encodeText text)
  have hnumber : ∀ negative digits, digits ≠ [] → digits.head? ≠ some 0 → (∀ d ∈ digits, d < 10) →
      Padded (Document.number ⟨negative, digits, none, none⟩).Spelled
        ((if negative then ['-'] else []) ++ digits.map Nat.digitChar) :=
    fun _ _ hne hhead hlt => padded_of_spelled
      ⟨fun hzero => absurd hzero hhead, _, [], [], ⟨hne, hlt, rfl⟩, .none, .none, by simp⟩
  have hempty : Padded (Document.array []).Spelled ['[', ']'] := padded_of_spelled ⟨[], nofun, rfl⟩
  have hdata := padded_of_spelled (p := Document.Spelled (.array [_, _])) ⟨_, ⟨_, _,
    hnumber true [1, 2, 8] (by decide) (by decide) (by decide),
    hnumber false [1, 2, 7] (by decide) (by decide) (by decide), rfl⟩, rfl⟩
  have hshape := padded_of_spelled (p := Document.Spelled (.array [_])) ⟨_,
    hnumber false [2] (by decide) (by decide) (by decide), rfl⟩
  have hinitializer := padded_of_spelled
    (p := Document.Spelled (.object [(_, .text _), (_, .text _), (_, _), (_, _)])) ⟨_, ⟨_, _, _, htext "name", htext "w", ⟨_, _, _, htext "dtype", htext "int8",
      ⟨_, _, _, htext "data", hdata, ⟨_, _, htext "shape", hshape, rfl⟩, rfl⟩, rfl⟩, rfl⟩, rfl⟩
  have hinitializers := padded_of_spelled (p := Document.Spelled (.array [_]))
    ⟨_, hinitializer, rfl⟩
  exact padded_of_spelled ⟨_, ⟨_, _, htext "", ⟨_, _, hempty, ⟨_, _, hinitializers,
    ⟨_, _, hempty, hempty, rfl⟩, rfl⟩, rfl⟩, rfl⟩, by decide⟩

end Stencil
