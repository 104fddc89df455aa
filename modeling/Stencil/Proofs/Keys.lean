import Mathlib.Data.List.Nodup
import Stencil.Association

/-!
# Keys of associations

The names that an association has values for. Putting and erasing keep them distinct.
-/

namespace Stencil

namespace Association

variable {α : Type} {entries : Association α} {name : String}

@[simp] theorem find?_nil : find? ([] : Association α) name = none := rfl

theorem find?_ne_none : entries.find? name ≠ none ↔ name ∈ entries.map Prod.fst := by
  induction entries with
  | nil => simp [find?]
  | cons entry rest ih =>
    obtain ⟨key, value⟩ := entry
    rw [find?_cons, List.map_cons, List.mem_cons, ← ih]
    by_cases h : name = key <;> simp [h]

theorem find?_eq_none : entries.find? name = none ↔ name ∉ entries.map Prod.fst := by
  rw [← find?_ne_none, not_not]

theorem find?_eq_some_iff (h : (entries.map Prod.fst).Nodup) {value : α} :
    entries.find? name = some value ↔ (name, value) ∈ entries := by
  induction entries with
  | nil => simp
  | cons entry rest ih =>
    obtain ⟨key, other⟩ := entry
    obtain ⟨hfresh, hrest⟩ := List.nodup_cons.1 h
    rw [find?_cons, List.mem_cons, Prod.mk.injEq]
    by_cases hname : name = key
    · subst hname
      have hnotMem : (name, value) ∉ rest := fun hmem => hfresh (List.mem_map.2 ⟨_, hmem, rfl⟩)
      simp [hnotMem, eq_comm]
    · simp [hname, ih hrest]

/-- Where names are distinct, the order of the entries does not matter. -/
theorem find?_of_perm {entries' : Association α} (h : (entries.map Prod.fst).Nodup) (hperm : entries.Perm entries')
    (name : String) : entries.find? name = entries'.find? name := by
  have h' : (entries'.map Prod.fst).Nodup := (hperm.map Prod.fst).nodup_iff.1 h
  ext value
  rw [find?_eq_some_iff h, find?_eq_some_iff h', hperm.mem_iff]

theorem keys_put (value : α) :
    (put entries name value).map Prod.fst =
      if name ∈ entries.map Prod.fst then entries.map Prod.fst else entries.map Prod.fst ++ [name] := by
  induction entries with
  | nil => rfl
  | cons entry rest ih =>
    obtain ⟨key, old⟩ := entry
    by_cases hk : key = name
    · simp [put, hk]
    · rw [put, if_neg hk, List.map_cons, ih]
      by_cases hmem : name ∈ rest.map Prod.fst <;> simp [hmem, Ne.symm hk]

theorem nodup_keys_put (h : (entries.map Prod.fst).Nodup) (value : α) :
    ((put entries name value).map Prod.fst).Nodup := by
  rw [keys_put]
  split
  next => exact h
  next hnew =>
    rw [List.nodup_append]
    refine ⟨h, List.nodup_singleton name, fun key hkey last hlast heq => hnew ?_⟩
    rwa [← List.mem_singleton.1 hlast, ← heq]

/-- A new name comes last. -/
theorem put_of_notMem (h : name ∉ entries.map Prod.fst) (value : α) :
    put entries name value = entries ++ [(name, value)] := by
  induction entries with
  | nil => rfl
  | cons entry rest ih =>
    obtain ⟨key, old⟩ := entry
    rw [List.map_cons, List.mem_cons, not_or] at h
    rw [put, if_neg (Ne.symm h.1), ih h.2, List.cons_append]

theorem foldl_put {added : List (String × α)} (h : ((entries ++ added).map Prod.fst).Nodup) :
    added.foldl (fun built (name, value) => put built name value) entries = entries ++ added := by
  induction added generalizing entries with
  | nil => simp
  | cons entry rest ih =>
    obtain ⟨key, value⟩ := entry
    have hnew : key ∉ entries.map Prod.fst := by
      rw [List.map_append, List.nodup_append] at h
      exact fun hmem => h.2.2 key hmem key List.mem_cons_self rfl
    rw [List.foldl_cons]
    dsimp only
    rw [put_of_notMem hnew, ih (by simpa using h), List.append_assoc]
    rfl

/-- Entries with distinct names are kept in their order. -/
theorem ofEntries_of_nodup (h : (entries.map Prod.fst).Nodup) : ofEntries entries = entries :=
  foldl_put h

theorem nodup_keys_erase (h : (entries.map Prod.fst).Nodup) :
    ((entries.erase name).map Prod.fst).Nodup :=
  h.sublist (List.filter_sublist.map Prod.fst)

theorem erase_of_notMem (h : name ∉ entries.map Prod.fst) : entries.erase name = entries := by
  apply List.filter_eq_self.2
  intro entry hentry
  have hne : entry.1 ≠ name := fun heq => h (heq ▸ List.mem_map_of_mem hentry)
  simpa using hne

end Association

end Stencil
