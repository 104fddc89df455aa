import Mathlib.Algebra.Group.Int.Defs
import Stencil.Json.Writer
import Stencil.Proofs.Documents

/-!
# Writing JSON values

A value without floating-point numbers whose integers fit in 64 bits is written as a document
that stands for it, so that reading the text gives the value back.
-/

namespace Stencil.Json

/-! ## Numbers -/

/-- A natural number is written with decimal digits, and only zero with a zero in front. -/
theorem exists_digits (n : Nat) : ∃ digits, DigitsSpelled digits (Nat.toDigits 10 n) ∧
    ofDigits digits = n ∧ (digits.head? = some 0 → digits = [0]) := by
  induction n using Nat.strongRecOn with
  | ind n ih =>
    rw [Nat.toDigits_eq_if (by decide)]
    split
    next hn =>
      refine ⟨[n], ⟨List.cons_ne_nil _ _, by simpa using hn, rfl⟩, by simp [ofDigits], ?_⟩
      rintro ⟨⟩
      rfl
    next hn =>
      obtain ⟨digits, ⟨hne, hlt, hchars⟩, hvalue, hzero⟩ := ih (n / 10) (by omega)
      refine ⟨digits ++ [n % 10], ⟨by simp, ?_, by simp [hchars]⟩, ?_, ?_⟩
      · simp only [List.mem_append, List.mem_singleton]
        rintro d (hd | rfl)
        · exact hlt d hd
        · omega
      · rw [ofDigits, List.foldl_append, ← ofDigits, hvalue]
        simp only [List.foldl_cons, List.foldl_nil]
        omega
      · -- A zero in front would be that of the number without its last digit, which is not zero.
        rw [List.head?_append_of_ne_nil _ hne]
        intro hhead
        rw [hzero hhead] at hvalue
        have : n / 10 = 0 := hvalue.symm
        omega

theorem exists_literal (i : Int) : ∃ n : NumberLiteral, n.Spelled (encodeInt i) ∧ n.IsInteger ∧
    n.intValue = i := by
  cases i with
  | ofNat n =>
    obtain ⟨digits, hdigits, hvalue, hzero⟩ := exists_digits n
    refine ⟨⟨false, digits, none, none⟩, ⟨hzero, _, _, _, hdigits, .none, .none, ?_⟩, ?_, ?_⟩
    · change (toString n).toList = _
      simp
    · simp [NumberLiteral.IsInteger]
    · simp [NumberLiteral.intValue, hvalue]
  | negSucc n =>
    obtain ⟨digits, hdigits, hvalue, hzero⟩ := exists_digits (n + 1)
    have hint : NumberLiteral.intValue ⟨true, digits, none, none⟩ = Int.negSucc n := by
      rw [NumberLiteral.intValue, hvalue]
      rfl
    refine ⟨⟨true, digits, none, none⟩, ⟨hzero, _, _, _, hdigits, .none, .none, ?_⟩, ?_, hint⟩
    · change ("-" ++ toString (n + 1)).toList = _
      simp
    · exact ⟨rfl, rfl, fun h => by simp [hint] at h⟩

/-- A literal has an integer value exactly if an integer is written that fits in 64 bits. -/
theorem NumberLiteral.value_eq_int {n : NumberLiteral} {i : Int} :
    n.value = .int i ↔ n.IsInteger ∧ n.intValue = i ∧ -2 ^ 63 ≤ i ∧ i < 2 ^ 64 := by
  have hfloat : ∀ n : NumberLiteral, n.floatValue ≠ .int i := by
    intro n
    unfold floatValue
    split <;> nofun
  obtain ⟨negative, whole, fraction, exponent⟩ := n
  unfold value IsInteger intValue
  cases fraction with
  | some fraction => simp [hfloat]
  | none =>
    cases exponent with
    | some exponent => simp [hfloat]
    | none =>
      cases negative with
      | false =>
        simp
        split
        · simp
          omega
        · simp [hfloat]
          omega
      | true =>
        simp
        split
        · simp
          omega
        · simp [hfloat]
          omega

/-! ## Texts -/

theorem joinPieces_unit {code : Nat} (h : code < 0xD800) (pieces : List Piece) :
    joinPieces (.unit code :: pieces) = (joinPieces pieces).map (Char.ofNat code :: ·) := by
  have hhigh : isHighUnit code = false := by simp [isHighUnit]; omega
  have hlow : isLowUnit code = false := by simp [isLowUnit]; omega
  match pieces with
  | [] => simp [joinPieces, hhigh, hlow]
  | .char c :: pieces => simp [joinPieces, hhigh, hlow, Function.comp_def]
  | .unit next :: pieces => simp [joinPieces, hhigh, hlow]

theorem hexUnit?_control {c : Char} (h : c.toNat < 32) :
    hexUnit? '0' '0' (Nat.digitChar (c.toNat / 16)) (Nat.digitChar (c.toNat % 16)) = some c.toNat := by
  have hdigit : ∀ d < 16, hexDigit? (Nat.digitChar d) = some d := by decide
  have hzero : hexDigit? '0' = some 0 := rfl
  simp only [hexUnit?, hzero, hdigit (c.toNat / 16) (by omega), hdigit (c.toNat % 16) (by omega)]
  exact congrArg some (by omega)

/-- Each character is written as one piece. -/
theorem exists_piece (c : Char) {pieces : List Piece} {cs text : List Char}
    (h : PiecesSpelled pieces cs) (hjoin : joinPieces pieces = some text) :
    ∃ piece, PiecesSpelled (piece :: pieces) (encodeChar c ++ cs) ∧
      joinPieces (piece :: pieces) = some (c :: text) := by
  have hchar : joinPieces (.char c :: pieces) = some (c :: text) := by simp [joinPieces, hjoin]
  unfold encodeChar
  split
  case h_8 hquote hbackslash _ _ _ _ _ =>
    split
    next hcontrol =>
      refine ⟨.unit c.toNat, .unit (hexUnit?_control hcontrol) h, ?_⟩
      rw [joinPieces_unit (by omega), hjoin]
      simp [Char.ofNat_toNat]
    next hcontrol => exact ⟨.char c, .char hquote hbackslash (Nat.not_lt.1 hcontrol) h, hchar⟩
  all_goals exact ⟨.char _, .escape (by decide) h, hchar⟩

theorem exists_pieces (text : List Char) :
    ∃ pieces, PiecesSpelled pieces (text.flatMap encodeChar) ∧ joinPieces pieces = some text := by
  induction text with
  | nil => exact ⟨[], .nil, rfl⟩
  | cons c text ih =>
    obtain ⟨pieces, hspelled, hjoin⟩ := ih
    obtain ⟨piece, hspelled, hjoin⟩ := exists_piece c hspelled hjoin
    exact ⟨piece :: pieces, hspelled, hjoin⟩

theorem textSpelled_encodeText (text : String) : TextSpelled (some text) (encodeText text.toList) := by
  obtain ⟨pieces, hspelled, hjoin⟩ := exists_pieces text.toList
  exact ⟨pieces, _, hspelled, by simp [hjoin], rfl⟩

/-! ## Values -/

/-- The value has no floating-point numbers, and its integers fit in 64 bits. -/
inductive IsExact : Json → Prop where
  | null : IsExact null
  | bool (value : Bool) : IsExact (bool value)
  | int {value : Int} : -2 ^ 63 ≤ value → value < 2 ^ 64 → IsExact (int value)
  | text (value : String) : IsExact (text value)
  | array {items : List Json} : (∀ v ∈ items, IsExact v) → IsExact (array items)
  | object {fields : List (String × Json)} : (∀ field ∈ fields, IsExact field.2) → IsExact (object fields)

theorem padded_of_spelled {p : List Char → Prop} {cs : List Char} (h : p cs) : Document.Padded p cs :=
  ⟨[], cs, [], nofun, h, nofun, by simp⟩

open Document

/-- The characters that a value is written with spell a document of it. -/
def WritesDocument (v : Json) : Prop := ∃ d : Document, d.value = v ∧ d.Spelled v.encode

theorem exists_items {items : List Json} (h : ∀ v ∈ items, v.WritesDocument) :
    ∃ ds, values ds = items ∧ ItemsSpelled ds (encodeItems items) := by
  induction items with
  | nil => exact ⟨[], rfl, nofun⟩
  | cons v items ih =>
    rw [List.forall_mem_cons] at h
    obtain ⟨⟨d, rfl, hspelled⟩, hitems⟩ := h
    obtain ⟨ds, rfl, hds⟩ := ih hitems
    refine ⟨d :: ds, rfl, ?_⟩
    cases ds with
    | nil => exact padded_of_spelled hspelled
    | cons next ds => exact ⟨_, _, padded_of_spelled hspelled, hds, rfl⟩

theorem ofNamedFields_eq (fields : List (Option String × Json)) :
    ofNamedFields fields = (fields.mapM fun field : Option String × Json => field.1.map (·, field.2)).elim .broken .object := by
  unfold ofNamedFields
  split
  next named h =>
    have hnamed : (fields.mapM fun field : Option String × Json => field.1.map (·, field.2)) = some named := h
    rw [hnamed, Option.elim_some]
  next h =>
    have hnone : (fields.mapM fun field : Option String × Json => field.1.map (·, field.2)) = none := h
    rw [hnone, Option.elim_none]

theorem ofNamedFields_map (fields : List (String × Json)) :
    ofNamedFields (fields.map fun (name, v) => (some name, v)) = .object fields := by
  rw [ofNamedFields_eq, List.mapM_map]
  change (fields.mapM fun field => (pure field : Option (String × Json))).elim .broken .object = object fields
  rw [List.mapM_pure, List.map_id']
  rfl

theorem exists_fields {fields : List (String × Json)} (h : ∀ field ∈ fields, field.2.WritesDocument) :
    ∃ ds, fieldValues ds = fields.map (fun (name, v) => (some name, v)) ∧
      FieldsSpelled ds (encodeFields fields) := by
  induction fields with
  | nil => exact ⟨[], rfl, nofun⟩
  | cons field fields ih =>
    obtain ⟨name, v⟩ := field
    rw [List.forall_mem_cons] at h
    obtain ⟨⟨d, rfl, hspelled⟩, hfields⟩ := h
    obtain ⟨ds, hvalues, hds⟩ := ih hfields
    have hname := padded_of_spelled (textSpelled_encodeText name)
    refine ⟨(some name, d) :: ds, by simp [fieldValues, hvalues], ?_⟩
    cases fields with
    | nil =>
      obtain rfl : ds = [] := by
        cases ds with
        | nil => rfl
        | cons field ds => cases hvalues
      exact ⟨_, _, hname, padded_of_spelled hspelled, rfl⟩
    | cons next fields =>
      cases ds with
      | nil => cases hvalues
      | cons field ds => exact ⟨_, _, _, hname, padded_of_spelled hspelled, hds, rfl⟩

theorem IsExact.writesDocument {v : Json} (h : v.IsExact) : v.WritesDocument := by
  induction h with
  | null => exact ⟨.null, rfl, rfl⟩
  | bool b => cases b <;> exact ⟨.bool _, rfl, rfl⟩
  | @int i hleast hgreatest =>
    obtain ⟨n, hspelled, hinteger, hvalue⟩ := exists_literal i
    exact ⟨.number n, NumberLiteral.value_eq_int.2 ⟨hinteger, hvalue, hleast, hgreatest⟩, hspelled⟩
  | text s => exact ⟨.text (some s), rfl, textSpelled_encodeText s⟩
  | array _ ih =>
    obtain ⟨ds, hvalues, hds⟩ := exists_items ih
    exact ⟨.array ds, congrArg Json.array hvalues, _, hds, rfl⟩
  | @object fields _ ih =>
    obtain ⟨ds, hvalues, hds⟩ := exists_fields ih
    refine ⟨.object ds, ?_, _, hds, rfl⟩
    rw [value, hvalues, ofNamedFields_map]

/-- Reading what has been written gives the value back. -/
theorem parse?_render {v : Json} (h : v.IsExact) : parse? v.render = some v := by
  obtain ⟨d, hvalue, hspelled⟩ := h.writesDocument
  have hwritten : d.Written v.render := padded_of_spelled (by simpa [render] using hspelled)
  rw [parse?_of_written hwritten, hvalue]

end Stencil.Json
