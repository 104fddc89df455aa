/-!
# Association lists

Values by name, in the order in which the names first came.
-/

namespace Stencil

/-- At most one value for each name, as long as it is built by `put`. -/
abbrev Association (α : Type) : Type := List (String × α)

namespace Association

variable {α : Type}

def find? (entries : Association α) (name : String) : Option α := entries.lookup name

/-- A later value of a name replaces an earlier one where that stands. -/
def put (entries : Association α) (name : String) (value : α) : Association α :=
  match entries with
  | [] => [(name, value)]
  | (other, old) :: rest =>
    if other = name then (name, value) :: rest else (other, old) :: put rest name value

def erase (entries : Association α) (name : String) : Association α :=
  entries.filter fun entry => entry.1 ≠ name

def ofEntries (entries : List (String × α)) : Association α :=
  entries.foldl (fun built (name, value) => put built name value) []

theorem find?_cons (name key : String) (value : α) (rest : Association α) :
    find? ((key, value) :: rest) name = if name = key then some value else find? rest name := by
  by_cases h : name = key
  · simp [find?, h]
  · simp [find?, List.lookup_cons, beq_eq_false_iff_ne.2 h, h]

theorem find?_put (entries : Association α) (name other : String) (value : α) :
    (put entries name value).find? other = if other = name then some value else entries.find? other := by
  induction entries with
  | nil => rw [put, find?_cons]
  | cons entry rest ih =>
    obtain ⟨key, old⟩ := entry
    by_cases hk : key = name
    · subst hk
      simp only [put, if_true, find?_cons]
      split <;> rfl
    · simp only [put, hk, if_false, find?_cons, ih]
      by_cases h : other = key
      · subst h
        simp [hk]
      · simp [h]

theorem find?_erase (entries : Association α) (name other : String) :
    (entries.erase name).find? other = if other = name then none else entries.find? other := by
  induction entries with
  | nil => simp [erase, find?]
  | cons entry rest ih =>
    obtain ⟨key, old⟩ := entry
    by_cases hk : key = name
    · subst hk
      rw [find?_cons, show erase ((key, old) :: rest) key = erase rest key by simp [erase], ih]
      split <;> rfl
    · rw [show erase ((key, old) :: rest) name = (key, old) :: erase rest name by simp [erase, hk],
        find?_cons, find?_cons, ih]
      by_cases h : other = key
      · subst h
        simp [hk]
      · simp [h]

end Association

end Stencil
