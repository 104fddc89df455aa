import Mathlib.Data.List.Basic
import Stencil.Model.Decode
import Stencil.Model.Encode
import Stencil.Proofs.Outcome

/-!
# Decoded records

What it takes for a record to be decoded, as conditions on its fields. A record in which one field
is replaced is decoded as before, but for that field.
-/

namespace Stencil

/-! ## Buffered values -/

namespace Json

theorem areWhole_iff {items : List Json} : areWhole items ↔ ∀ v ∈ items, v.isWhole := by
  induction items with
  | nil => simp [areWhole]
  | cons v items ih => simp [areWhole, ih]

theorem depthOfItems_le {items : List Json} {depth : Nat} :
    depthOfItems items ≤ depth ↔ ∀ v ∈ items, v.depth ≤ depth := by
  induction items with
  | nil => simp [depthOfItems]
  | cons v items ih => rw [depthOfItems, Nat.max_le, ih, List.forall_mem_cons]

/-- An array of values that hold no others is buffered if none of them is broken. -/
theorem buffer_array {items : List Json} {levels : Nat} (hdepth : ∀ v ∈ items, v.depth = 0) {u : Unit} :
    (array items).buffer (levels + 1) = .ok u ↔ ∀ v ∈ items, v.isWhole := by
  have hflat : depthOfItems items ≤ levels :=
    depthOfItems_le.2 fun v hv => Nat.le_trans (Nat.le_of_eq (hdepth v hv)) (Nat.zero_le levels)
  simp [buffer, isWhole, depth, hflat, areWhole_iff]

theorem buffer_ofInts (values : List Int) (levels : Nat) :
    (ofInts values).buffer (levels + 1) = .ok () := by
  refine (buffer_array ?_).2 ?_ <;>
  · simp only [List.mem_map]
    rintro _ ⟨value, -, rfl⟩
    rfl

end Json

/-! ## Slots -/

theorem unfilled_of_isSome {α : Type} {name : String} {slot : Option α} (h : slot.isSome) :
    unfilled name slot = .error (.data (.duplicateField name)) := by
  simp [unfilled, h]

theorem required_eq_ok {α : Type} {name : String} {slot : Option α} {value : α} :
    required name slot = .ok value ↔ slot = some value := by
  cases slot <;> simp [required]

namespace InitializerSlots

/-- The slots with other data. -/
def withData (data : TensorData) (s : InitializerSlots) : InitializerSlots := { s with data := some data }

theorem read_withData (data : TensorData) {s : InitializerSlots} (h : s.data.isSome)
    (field : String × Json) : (s.withData data).read field = withData data <$> s.read field := by
  unfold read
  split
  next =>
    rw [unfilled_of_isSome h, unfilled_of_isSome rfl]
    rfl
  next name v _ => cases v.buffer levels <;> rfl

theorem exists_withData {s : InitializerSlots} (h : s.data.isSome) : ∃ data, s.withData data = s := by
  obtain ⟨data, hdata⟩ := Option.isSome_iff_exists.1 h
  exact ⟨data, by rw [withData, ← hdata]⟩

end InitializerSlots

namespace Initializer

/-- An initializer with another value in place of its data. -/
theorem decode_data_eq_ok {before after : List (String × Json)} {v₀ : Json} {i₀ : Initializer}
    (h : decode (.object (before ++ ("data", v₀) :: after)) = .ok i₀) (v : Json) (i : Initializer) :
    decode (.object (before ++ ("data", v) :: after)) = .ok i ↔
      v.buffer InitializerSlots.levels = .ok () ∧
        ∃ data, TensorData.decode v = .ok data ∧ i = ⟨i₀.tensor, data⟩ := by
  obtain ⟨s, hs, hfinish⟩ := Except.bind_eq_ok.1 h
  obtain ⟨_, -, hfinish⟩ := Except.bind_eq_ok.1 hfinish
  obtain ⟨t, ht, hfinish⟩ := Except.bind_eq_ok.1 hfinish
  obtain rfl := Except.pure_eq_ok.1 hfinish
  have hreplace := Except.foldlM_middle_eq_ok (x := fun v => ("data", v))
    (f := InitializerSlots.read) (g := InitializerSlots.withData) (c := fun s => unfilled "data" s.data)
    (r := fun v => do v.buffer InitializerSlots.levels; TensorData.decode v)
    (P := fun s => s.data.isSome) (fun _ _ => by simp only [bind_assoc]; rfl)
    (fun _ _ => rfl) (fun _ _ _ => rfl) (fun d _ a hs => InitializerSlots.read_withData d hs a)
    (fun _ hs => InitializerSlots.exists_withData hs) hs v
  simp only [decode, Except.bind_eq_ok, hreplace, InitializerSlots.finish, required_eq_ok,
    Except.pure_eq_ok]
  constructor
  · rintro ⟨_, ⟨data, ⟨_, hbuffer, hdata⟩, rfl⟩, _, hsome, t', ht', rfl⟩
    obtain rfl := Option.some.inj hsome
    obtain rfl := Except.ok.inj (ht.symm.trans ht')
    exact ⟨hbuffer, data, hdata, rfl⟩
  · rintro ⟨hbuffer, data, hdata, rfl⟩
    exact ⟨_, ⟨data, ⟨_, hbuffer, hdata⟩, rfl⟩, data, rfl, t, ht, rfl⟩

end Initializer

namespace ModelSlots

/-- The slots with other initializers. -/
def withInitializers (initializers : List Initializer) (s : ModelSlots) : ModelSlots :=
  { s with initializers := some initializers }

theorem readField_withInitializers (initializers : List Initializer) {s : ModelSlots}
    (h : s.initializers.isSome) (field : String × Json) :
    Model.readField (s.withInitializers initializers) field =
      withInitializers initializers <$> Model.readField s field := by
  unfold Model.readField
  split
  case h_3 =>
    rw [unfilled_of_isSome h, unfilled_of_isSome rfl]
    rfl
  case h_6 => rfl
  all_goals
    -- The guards do not look at the initializers, and reading a value does not look at the slots.
    simp only [withInitializers, bind, Except.bind]
    split
    next => rfl
    next => split <;> rfl

theorem exists_withInitializers {s : ModelSlots} (h : s.initializers.isSome) :
    ∃ initializers, s.withInitializers initializers = s := by
  obtain ⟨initializers, hinitializers⟩ := Option.isSome_iff_exists.1 h
  exact ⟨initializers, by rw [withInitializers, ← hinitializers]⟩

end ModelSlots

namespace Model

/-- A model with another value in place of its initializers. -/
theorem decode_initializers_eq_ok {before after : List (String × Json)} {v₀ : Json} {m₀ : Model}
    (h : decode (.object (before ++ ("initializers", v₀) :: after)) = .ok m₀) (v : Json) (m : Model) :
    decode (.object (before ++ ("initializers", v) :: after)) = .ok m ↔
      ∃ initializers, decodeInitializers v = .ok initializers ∧ m = { m₀ with initializers } := by
  obtain ⟨s, hs, hfinish⟩ := Except.bind_eq_ok.1 h
  have hreplace := Except.foldlM_middle_eq_ok (x := fun v => ("initializers", v))
    (f := readField) (g := ModelSlots.withInitializers) (c := fun s => unfilled "initializers" s.initializers)
    (r := decodeInitializers) (P := fun s => s.initializers.isSome)
    (fun _ _ => rfl) (fun _ _ => rfl) (fun _ _ _ => rfl) (fun l _ field hs => ModelSlots.readField_withInitializers l hs field)
    (fun _ hs => ModelSlots.exists_withInitializers hs) hs v
  have hfinish' : ∀ initializers, finish (s.withInitializers initializers) = .ok { m₀ with initializers } := by
    intro initializers
    simp only [finish, Except.bind_eq_ok, Except.pure_eq_ok] at hfinish ⊢
    obtain ⟨inputs, hinputs, nodes, hnodes, outputs, houtputs, rfl⟩ := hfinish
    exact ⟨inputs, hinputs, nodes, hnodes, outputs, houtputs, rfl⟩
  change (do finish (← (before ++ ("initializers", v) :: after).foldlM readField {})) = .ok m ↔ _
  rw [Except.bind_eq_ok]
  constructor
  · rintro ⟨s', hs', hm⟩
    obtain ⟨initializers, hread, rfl⟩ := (hreplace s').1 hs'
    exact ⟨initializers, hread, (Except.ok.inj ((hfinish' initializers).symm.trans hm)).symm⟩
  · rintro ⟨initializers, hread, rfl⟩
    exact ⟨_, (hreplace _).2 ⟨initializers, hread, rfl⟩, hfinish' initializers⟩

/-- The initializers come third in a model that is written as an array. -/
theorem decode_array_eq_ok {name inputs : Json} {rest : List Json} {v₀ : Json} {m₀ : Model}
    (h : decode (.array (name :: inputs :: v₀ :: rest)) = .ok m₀) (v : Json) (m : Model) :
    decode (.array (name :: inputs :: v :: rest)) = .ok m ↔
      ∃ initializers, decodeInitializers v = .ok initializers ∧ m = { m₀ with initializers } := by
  -- No other field is found elsewhere than before.
  have hother : ∀ i, i ≠ 2 → record.element (name :: inputs :: v :: rest) i =
      record.element (name :: inputs :: v₀ :: rest) i := by
    intro i hi
    match i with
    | 0 | 1 | _ + 3 => rfl
    | 2 => exact absurd rfl hi
  have hend : record.checkEnd (name :: inputs :: v :: rest) =
    record.checkEnd (name :: inputs :: v₀ :: rest) := rfl
  simp only [decode, RecordShape.decode, decodeItems, Except.bind_eq_ok, Except.pure_eq_ok] at h
  obtain ⟨_, ⟨name', hname, inputs', hinputs, ts, hts, _, -, nodes, hnodes, ns, hns, outputs, houtputs,
    texts, htexts, rfl⟩, _, hchecked, rfl⟩ := h
  have hname : name.asText = .ok name' := hname
  have hreplace : decode (.array (name :: inputs :: v :: rest)) =
      (fun initializers => ⟨name', ts, initializers, ns, texts⟩) <$> decodeInitializers v := by
    cases hread : decodeInitializers v <;>
      simp [decode, RecordShape.decode, decodeItems, hread, hother, hend, hname, hinputs, hts, hnodes, hns,
        houtputs, htexts, hchecked, Except.error_bind]
  rw [hreplace, Except.map_eq_ok]
  exact exists_congr fun _ => and_congr_right fun _ => eq_comm

end Model

end Stencil
