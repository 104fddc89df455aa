import Mathlib.Data.List.Basic
import Mathlib.Data.List.Range
import Mathlib.Tactic.Ring
import Mathlib.Tactic.Linarith
import Stencil.C.Meaning

/-!
# Row-major order

Nested ranges enumerate the indices of an array in the order of its elements, and the
flat index of an element is the number of elements before it.
-/

namespace Stencil

theorem mul_add_lt_mul {i m j n : Nat} (hi : i < m) (hj : j < n) : i * n + j < m * n :=
  calc
    i * n + j < i * n + n := Nat.add_lt_add_left hj _
    _ = (i + 1) * n := (Nat.succ_mul i n).symm
    _ ≤ m * n := Nat.mul_le_mul_right n hi

/-- A loop in a loop is one loop over all pairs. -/
theorem flatMap_range_mul {α : Type} (m n : Nat) (f : Nat → List α) :
    ((List.range m).flatMap fun i => (List.range n).flatMap fun j => f (i * n + j)) =
      (List.range (m * n)).flatMap f := by
  induction m with
  | zero => simp
  | succ m ih =>
    rw [List.range_succ, List.flatMap_append, ih, Nat.succ_mul, List.range_add, List.flatMap_append,
      List.flatMap_map, List.flatMap_singleton]

/-- Four nested loops visit the elements of an array in order. -/
theorem flatMap_range_four {α : Type} (d₀ d₁ d₂ d₃ : Nat) (f : Nat → α) :
    ((List.range d₀).flatMap fun i₀ => (List.range d₁).flatMap fun i₁ =>
      (List.range d₂).flatMap fun i₂ => (List.range d₃).map fun i₃ =>
        f (((i₀ * d₁ + i₁) * d₂ + i₂) * d₃ + i₃)) =
      (List.range (d₀ * d₁ * d₂ * d₃)).map f := by
  -- The two outermost loops become one, three times over.
  simp only [List.map_eq_flatMap]
  rw [flatMap_range_mul d₀ d₁ fun p => (List.range d₂).flatMap fun i₂ =>
      (List.range d₃).flatMap fun i₃ => [f ((p * d₂ + i₂) * d₃ + i₃)],
    flatMap_range_mul (d₀ * d₁) d₂ fun q => (List.range d₃).flatMap fun i₃ => [f (q * d₃ + i₃)],
    flatMap_range_mul (d₀ * d₁ * d₂) d₃ fun r => [f r]]

/-! ## Indices -/

/-- The indices of an array of four dimensions, in the order of its elements. -/
def indices (d₀ d₁ d₂ d₃ : Nat) : List (Nat × Nat × Nat × Nat) :=
  (List.range d₀).flatMap fun i₀ => (List.range d₁).flatMap fun i₁ =>
    (List.range d₂).flatMap fun i₂ => (List.range d₃).map fun i₃ => (i₀, i₁, i₂, i₃)

theorem map_flat_indices (d₀ d₁ d₂ d₃ : Nat) :
    ((indices d₀ d₁ d₂ d₃).map fun (i₀, i₁, i₂, i₃) => ((i₀ * d₁ + i₁) * d₂ + i₂) * d₃ + i₃) =
      List.range (d₀ * d₁ * d₂ * d₃) := by
  simp only [indices, List.map_flatMap, List.map_map, Function.comp_def]
  exact (flatMap_range_four _ _ _ _ id).trans (List.map_id _)

theorem length_indices (d₀ d₁ d₂ d₃ : Nat) : (indices d₀ d₁ d₂ d₃).length = d₀ * d₁ * d₂ * d₃ := by
  simpa using congrArg List.length (map_flat_indices d₀ d₁ d₂ d₃)

variable {d₀ d₁ d₂ d₃ : Nat}

theorem mem_indices {i₀ i₁ i₂ i₃ : Nat} :
    (i₀, i₁, i₂, i₃) ∈ indices d₀ d₁ d₂ d₃ ↔ i₀ < d₀ ∧ i₁ < d₁ ∧ i₂ < d₂ ∧ i₃ < d₃ := by
  simp [indices]

/-- Each index is listed at its own place. -/
theorem getElem?_indices {i₀ i₁ i₂ i₃ : Nat} (h : (i₀, i₁, i₂, i₃) ∈ indices d₀ d₁ d₂ d₃) :
    (indices d₀ d₁ d₂ d₃)[((i₀ * d₁ + i₁) * d₂ + i₂) * d₃ + i₃]? = some (i₀, i₁, i₂, i₃) := by
  -- Flat indices and places agree all along the list, hence also here.
  obtain ⟨k, hk⟩ := List.mem_iff_getElem?.1 h
  have hlt : k < (indices d₀ d₁ d₂ d₃).length := (List.getElem?_eq_some_iff.1 hk).1
  have hflat : (List.range (indices d₀ d₁ d₂ d₃).length)[k]? = some (((i₀ * d₁ + i₁) * d₂ + i₂) * d₃ + i₃) := by
    rw [length_indices, ← map_flat_indices, List.getElem?_map, hk]
    rfl
  rw [List.getElem?_range hlt] at hflat
  rwa [← Option.some.inj hflat]

namespace C

/-! ## Flat indices -/

theorem flatIndex?_four {d₀ d₁ d₂ d₃ i₀ i₁ i₂ i₃ : Nat} (h₀ : i₀ < d₀) (h₁ : i₁ < d₁) (h₂ : i₂ < d₂)
    (h₃ : i₃ < d₃) :
    flatIndex? [d₀, d₁, d₂, d₃] [i₀, i₁, i₂, i₃] =
      some (((i₀ * d₁ + i₁) * d₂ + i₂) * d₃ + i₃) := by
  simp only [flatIndex?, h₀, h₁, h₂, h₃, if_true, Option.map_some, List.foldr_cons, List.foldr_nil,
    Option.some.injEq]
  ring

theorem flat_lt_four {d₀ d₁ d₂ d₃ i₀ i₁ i₂ i₃ : Nat} (h₀ : i₀ < d₀) (h₁ : i₁ < d₁) (h₂ : i₂ < d₂)
    (h₃ : i₃ < d₃) : ((i₀ * d₁ + i₁) * d₂ + i₂) * d₃ + i₃ < d₀ * d₁ * d₂ * d₃ :=
  mul_add_lt_mul (mul_add_lt_mul (mul_add_lt_mul h₀ h₁) h₂) h₃

/-- The element of an array at an index of every dimension. -/
def element? (dims : List Nat) (values : List Int32) (indices : List Nat) : Option Int32 :=
  (flatIndex? dims indices).bind (values[·]?)

end C

end Stencil
