import Mathlib.Data.List.Nodup
import Stencil.Proofs.Outcome
import Stencil.Registry

/-!
# The registry's indexes

Both indexes of a registry find exactly the positions of its tensors, so that names and
C names are pairwise distinct. Registering a tensor and marking an output keep it so.
-/

namespace Stencil

/-! ## Indexes -/

/-- An index finds the positions of the elements by their keys, and nothing else. -/
def Indexes {α : Type} (key : α → String) (l : List α) (entries : Association Nat) : Prop :=
  ∀ name i, entries.find? name = some i ↔ l[i]?.map key = some name

namespace Indexes

variable {α : Type} {key : α → String} {l : List α} {entries : Association Nat}

theorem nil (key : α → String) : Indexes key [] [] := by
  intro name i
  simp [Association.find?]

/-- The keys of indexed elements are distinct, since a key is found in one place only. -/
theorem nodup (h : Indexes key l entries) : (l.map key).Nodup := by
  rw [List.nodup_iff_getElem?_ne_getElem?]
  intro i j hij hj heq
  have hkey : (l.map key)[j]? = some (l.map key)[j] := List.getElem?_eq_getElem hj
  have hi : entries.find? (l.map key)[j] = some i := by
    rw [h, ← List.getElem?_map]
    exact heq.trans hkey
  have hj : entries.find? (l.map key)[j] = some j := by
    rwa [h, ← List.getElem?_map]
  rw [hi] at hj
  exact Nat.ne_of_lt hij (Option.some.inj hj)

theorem find?_eq_none (h : Indexes key l entries) {name : String} :
    entries.find? name = none ↔ name ∉ l.map key := by
  rw [Option.eq_none_iff_forall_ne_some, List.mem_iff_getElem?, not_exists]
  refine forall_congr' fun i => ?_
  rw [Ne, h, List.getElem?_map]

/-- What an index leads to is the element of the key. -/
theorem find?_bind (h : Indexes key l entries) {name : String} {a : α} :
    (entries.find? name).bind (l[·]?) = some a ↔ a ∈ l ∧ key a = name := by
  rw [Option.bind_eq_some_iff]
  constructor
  · rintro ⟨i, hi, ha⟩
    rw [h, ha] at hi
    exact ⟨List.mem_of_getElem? ha, Option.some.inj hi⟩
  · rintro ⟨hmem, rfl⟩
    obtain ⟨i, hi⟩ := List.mem_iff_getElem?.1 hmem
    refine ⟨i, ?_, hi⟩
    rw [h, hi]
    rfl

/-- An element with a new key goes to the end. -/
theorem append (h : Indexes key l entries) {a : α} (hfresh : key a ∉ l.map key) :
    Indexes key (l ++ [a]) (entries.put (key a) l.length) := by
  intro name i
  rw [Association.find?_put]
  -- A position before the new element, its own, or one beyond the end.
  rcases Nat.lt_trichotomy i l.length with hi | rfl | hi
  · rw [List.getElem?_append_left hi]
    split
    next hname =>
      subst hname
      rw [← h, h.find?_eq_none.2 hfresh]
      simp only [Option.some.injEq, reduceCtorEq, iff_false]
      exact (Nat.ne_of_lt hi).symm
    next => exact h name i
  · rw [List.getElem?_concat_length, Option.map_some, Option.some.injEq]
    split
    next hname => simp [hname]
    next hname =>
      rw [h, List.getElem?_eq_none (Nat.le_refl _)]
      simp [Ne.symm hname]
  · rw [List.getElem?_eq_none (by rw [List.length_append]; exact hi)]
    split
    next =>
      simp only [Option.some.injEq, Option.map_none, reduceCtorEq, iff_false]
      exact Nat.ne_of_lt hi
    next => rw [h, List.getElem?_eq_none (Nat.le_of_lt hi)]

/-- A change that leaves the key of an element alone. -/
theorem modify (h : Indexes key l entries) {f : α → α} (hf : ∀ a, key (f a) = key a) (i : Nat) :
    Indexes key (l.modify i f) entries := by
  intro name j
  rw [h, List.getElem?_modify]
  cases l[j]? with
  | none => simp
  | some a => by_cases hij : i = j <;> simp [hij, hf]

/-- A change that gives an element a new key. -/
theorem rekey (h : Indexes key l entries) {f : α → α} {i : Nat} {a : α} (ha : l[i]? = some a)
    (hfresh : key (f a) ∉ l.map key) :
    Indexes key (l.modify i f) ((entries.erase (key a)).put (key (f a)) i) := by
  intro name j
  rw [Association.find?_put, Association.find?_erase, List.getElem?_modify]
  have hold : ∀ k, l[k]?.map key = some (key a) ↔ k = i := by
    intro k
    have hfind : entries.find? (key a) = some i := (h _ _).2 (by rw [ha]; rfl)
    rw [← h, hfind, Option.some.injEq, eq_comm]
  -- At the position of the change only the new key leads there, and elsewhere neither does.
  by_cases hij : i = j
  · subst hij
    simp only [ha, if_true, Option.map_some, Option.some.injEq, Option.map_eq_map]
    split
    next hname => simp [hname]
    next hname =>
      split
      next => simp [Ne.symm hname]
      next hne =>
        rw [h, ha]
        simp [Ne.symm hname, Ne.symm hne]
  · simp only [hij, if_false, Option.map_eq_map, Option.map_id_fun', id]
    split
    next hname =>
      subst hname
      rw [← h, h.find?_eq_none.2 hfresh]
      simp [hij]
    next =>
      split
      next hne =>
        subst hne
        simp [hold, Ne.symm hij]
      next => exact h name j

end Indexes

/-! ## Registries -/

/-- An array of the file never has the C name of a parameter of the same name. -/
theorem tensor_append_ne (identifier : String) : "tensor_" ++ identifier ≠ identifier := by
  intro h
  have hlength := congrArg String.length h
  simp at hlength

/-- The tensor as it is when the given names are those of the outputs. -/
def RegisteredTensor.marked (outputs : List String) (t : RegisteredTensor) : RegisteredTensor :=
  if t.tensor.name ∈ outputs then { t with role := .output } else t

@[simp] theorem RegisteredTensor.tensor_marked (outputs : List String) (t : RegisteredTensor) :
    (t.marked outputs).tensor = t.tensor := by
  unfold marked
  split <;> rfl

namespace Registry

/-- Both indexes lead to the tensors. -/
structure Indexed (r : Registry) : Prop where
  byName : Indexes (·.tensor.name) r.tensors r.byName
  byCName : Indexes RegisteredTensor.cName r.tensors r.byCName

variable {r : Registry}

theorem Indexed.empty : Registry.empty.Indexed := ⟨Indexes.nil _, Indexes.nil _⟩

/-- A name belongs to one position only. -/
theorem Indexed.position_unique (h : r.Indexed) {i j : Nat} {t u : RegisteredTensor}
    (ht : r.tensors[i]? = some t) (hu : r.tensors[j]? = some u) (hname : t.tensor.name = u.tensor.name) :
    i = j := by
  have hi := (h.byName t.tensor.name i).2 (by rw [ht]; rfl)
  have hj := (h.byName t.tensor.name j).2 (by rw [hu, hname]; rfl)
  exact Option.some.inj (hi.symm.trans hj)

theorem Indexed.eq_of_name_eq (h : r.Indexed) {t u : RegisteredTensor} (ht : t ∈ r.tensors)
    (hu : u ∈ r.tensors) (hname : t.tensor.name = u.tensor.name) : t = u := by
  obtain ⟨i, hi⟩ := List.mem_iff_getElem?.1 ht
  obtain ⟨j, hj⟩ := List.mem_iff_getElem?.1 hu
  obtain rfl := h.position_unique hi hj hname
  exact Option.some.inj (hi.symm.trans hj)

/-! ## Looking up -/

theorem Indexed.get?_eq_some (h : r.Indexed) {name : String} {t : RegisteredTensor} :
    r.get? name = some t ↔ t ∈ r.tensors ∧ t.tensor.name = name :=
  h.byName.find?_bind

theorem Indexed.getByCName?_eq_none (h : r.Indexed) {cName : String} :
    r.getByCName? cName = none ↔ cName ∉ r.tensors.map RegisteredTensor.cName := by
  rw [Option.eq_none_iff_forall_ne_some, List.mem_map, not_exists]
  exact forall_congr' fun t => not_congr h.byCName.find?_bind

theorem Indexed.tensor_eq_ok (h : r.Indexed) {name : String} {t : Tensor} :
    r.tensor name = .ok t ↔ ∃ u ∈ r.tensors, u.tensor = t ∧ t.name = name := by
  have hget : r.tensor name = .ok t ↔ ∃ u, r.get? name = some u ∧ u.tensor = t := by
    unfold tensor
    cases r.get? name <;> simp
  rw [hget]
  refine exists_congr fun u => ?_
  rw [h.get?_eq_some]
  constructor
  · rintro ⟨⟨hu, hname⟩, rfl⟩
    exact ⟨hu, rfl, hname⟩
  · rintro ⟨hu, rfl, hname⟩
    exact ⟨⟨hu, hname⟩, rfl⟩

/-- A C name passes the check if no tensor of another name has it. -/
theorem Indexed.checkCName_eq_ok (h : r.Indexed) {cName name : String} {u : Unit} :
    r.checkCName cName name = .ok u ↔ ∀ t ∈ r.tensors, t.cName = cName → t.tensor.name = name := by
  have hfind : ∀ t, r.getByCName? cName = some t ↔ t ∈ r.tensors ∧ t.cName = cName :=
    fun t => h.byCName.find?_bind
  unfold checkCName
  cases hget : r.getByCName? cName with
  | none =>
    rw [hget] at hfind
    simp only [true_iff]
    intro t ht hc
    exact absurd ((hfind t).2 ⟨ht, hc⟩) nofun
  | some existing =>
    dsimp only
    rw [hget] at hfind
    split
    next hname =>
      simp only [true_iff]
      intro t ht hc
      obtain rfl := Option.some.inj ((hfind t).2 ⟨ht, hc⟩)
      exact hname
    next hname =>
      simp only [reduceCtorEq, false_iff]
      intro hall
      obtain ⟨ht, hc⟩ := (hfind existing).1 rfl
      exact hname (hall existing ht hc)

/-! ## Growing -/

/-- Registering succeeds for a tensor with a new name, values that fit it, and a new C name. -/
theorem Indexed.register_eq_ok_iff (h : r.Indexed) {t : Tensor} {role : Role} {r' : Registry} :
    r.register t role = .ok r' ↔
      t.name ∉ r.tensors.map (·.tensor.name) ∧ role.check t = .ok () ∧
        RegisteredTensor.cName ⟨t, role⟩ ∉ r.tensors.map RegisteredTensor.cName ∧
        r.add ⟨t, role⟩ = r' := by
  unfold register
  rw [← h.byName.find?_eq_none]
  cases hfind : r.byName.find? t.name with
  | some position => simp
  | none =>
    have hname : t.name ∉ r.tensors.map (·.tensor.name) := h.byName.find?_eq_none.1 hfind
    -- Since the name is new, whatever has the C name has it under another name.
    have hcName : r.checkCName (RegisteredTensor.cName ⟨t, role⟩) t.name = .ok () ↔
        RegisteredTensor.cName ⟨t, role⟩ ∉ r.tensors.map RegisteredTensor.cName := by
      rw [h.checkCName_eq_ok, List.mem_map, not_exists]
      refine forall_congr' fun u => ?_
      rw [not_and]
      refine forall_congr' fun hu => imp_congr_right fun _ => ?_
      exact ⟨fun hsame => absurd (List.mem_map.2 ⟨u, hu, hsame⟩) hname, False.elim⟩
    simp only [Option.isSome_none, Bool.false_eq_true, if_false, Except.bind_eq_ok, Unique.exists_iff,
      Except.pure_eq_ok, default, hcName, true_and]

/-- Registering adds a tensor whose name and C name are new. -/
theorem Indexed.register_eq_ok (h : r.Indexed) {t : Tensor} {role : Role} {r' : Registry}
    (hr : r.register t role = .ok r') :
    r'.Indexed ∧ r'.tensors = r.tensors ++ [⟨t, role⟩] := by
  obtain ⟨hname, -, hcName, rfl⟩ := h.register_eq_ok_iff.1 hr
  exact ⟨⟨h.byName.append hname, h.byCName.append hcName⟩, rfl⟩

/-- The outputs are intermediate until they are marked. -/
theorem intermediatePosition_eq_ok {name : String} {position : Nat} :
    r.intermediatePosition name = .ok position ↔
      r.byName.find? name = some position ∧
        r.tensors[position]?.map RegisteredTensor.role = some .intermediate := by
  unfold intermediatePosition
  split
  next hnone => simp [hnone]
  next p hp =>
    rw [hp, Option.some.injEq]
    split <;> (constructor <;> rintro h <;> simp_all)

theorem intermediatePosition_eq_error {name : String} {e : BuildError}
    (h : r.intermediatePosition name = .error e) :
    e = .unknownTensor name ∨ e = .duplicateOutput name ∨ e = .invalidOutput name := by
  unfold intermediatePosition at h
  split at h
  next => exact .inl (Except.error.inj h).symm
  next =>
    split at h
    next => cases h
    next => exact .inr (.inl (Except.error.inj h).symm)
    next => exact .inr (.inr (Except.error.inj h).symm)
    next => exact .inl (Except.error.inj h).symm

theorem marked_singleton {name : String} {t : RegisteredTensor} (h : t.tensor.name = name) :
    t.marked [name] = { t with role := .output } :=
  if_pos (by simp [h])

theorem marked_cons (name : String) (names : List String) (t : RegisteredTensor) :
    (t.marked [name]).marked names = t.marked (name :: names) := by
  unfold RegisteredTensor.marked
  by_cases h : t.tensor.name = name
  · by_cases h' : t.tensor.name ∈ names <;> simp_all
  · by_cases h' : t.tensor.name ∈ names <;> simp_all

/-- Marking succeeds for the intermediate tensor of that name if its new C name is not taken. -/
theorem Indexed.markOutput_eq_ok_iff (h : r.Indexed) {name : String} {r' : Registry} :
    r.markOutput name = .ok r' ↔
      ∃ position t, r.tensors[position]? = some ⟨t, .intermediate⟩ ∧ t.name = name ∧
        C.identifier name ∉ r.tensors.map RegisteredTensor.cName ∧ r.promote name position = r' := by
  have hposition : ∀ position, r.intermediatePosition name = .ok position ↔
      ∃ t, r.tensors[position]? = some ⟨t, .intermediate⟩ ∧ t.name = name := by
    intro position
    rw [intermediatePosition_eq_ok, h.byName]
    cases r.tensors[position]? with
    | none => simp
    | some u =>
      obtain ⟨t, role⟩ := u
      simp [and_comm]
  -- Only a tensor of the same name could pass with the new C name, but that one is intermediate.
  have hcName : ∀ (position : Nat) (t : Tensor),
      r.tensors[position]? = some ⟨t, .intermediate⟩ → t.name = name →
      (r.checkCName (C.identifier name) name = .ok () ↔
        C.identifier name ∉ r.tensors.map RegisteredTensor.cName) := by
    rintro position t ht rfl
    rw [h.checkCName_eq_ok, List.mem_map, not_exists]
    refine forall_congr' fun u => ?_
    rw [not_and]
    refine forall_congr' fun hu => imp_congr_right fun hidentifier => ?_
    refine iff_of_false (fun hsame => ?_) id
    obtain rfl : ⟨t, .intermediate⟩ = u :=
      h.eq_of_name_eq (List.mem_of_getElem? ht) hu hsame.symm
    exact tensor_append_ne _ hidentifier
  constructor
  · intro hr
    obtain ⟨position, hfound, hr⟩ := Except.bind_eq_ok.1 hr
    obtain ⟨_, hcheck, hr⟩ := Except.bind_eq_ok.1 hr
    obtain ⟨t, ht, hname⟩ := (hposition position).1 hfound
    exact ⟨position, t, ht, hname, (hcName position t ht hname).1 hcheck, Except.pure_eq_ok.1 hr⟩
  · rintro ⟨position, t, ht, hname, hfresh, rfl⟩
    refine Except.bind_eq_ok.2 ⟨position, (hposition position).2 ⟨t, ht, hname⟩, ?_⟩
    exact Except.bind_eq_ok.2 ⟨(), (hcName position t ht hname).2 hfresh, rfl⟩

/-- Changing the role of the tensor at a position marks the tensor of its name. -/
theorem Indexed.modify_role (h : r.Indexed) {position : Nat} {t : RegisteredTensor}
    (ht : r.tensors[position]? = some t) :
    (r.tensors.modify position fun t => { t with role := .output }) =
      r.tensors.map (·.marked [t.tensor.name]) := by
  refine List.ext_getElem? fun i => ?_
  rw [List.getElem?_modify, List.getElem?_map]
  cases hu : r.tensors[i]? with
  | none => rfl
  | some u =>
    by_cases hname : u.tensor.name = t.tensor.name
    · obtain rfl := h.position_unique hu ht hname
      simp [marked_singleton hname]
    · have hi : position ≠ i := by
        rintro rfl
        obtain rfl : t = u := Option.some.inj (ht.symm.trans hu)
        exact hname rfl
      simp [RegisteredTensor.marked, hname, hi]

/-- Marking an output changes the role of the intermediate tensor of that name. -/
theorem Indexed.markOutput_eq_ok (h : r.Indexed) {name : String} {r' : Registry}
    (hr : r.markOutput name = .ok r') :
    r'.Indexed ∧ r'.tensors = r.tensors.map (·.marked [name]) ∧
      ∃ t ∈ r.tensors, t.tensor.name = name ∧ t.role = .intermediate := by
  obtain ⟨position, t, ht, rfl, hfresh, rfl⟩ := h.markOutput_eq_ok_iff.1 hr
  have hbyName := h.byName.modify (f := fun t => { t with role := .output }) (fun _ => rfl) position
  have hbyCName := h.byCName.rekey ht (f := fun t => { t with role := .output }) hfresh
  exact ⟨⟨hbyName, hbyCName⟩, h.modify_role ht, _, List.mem_of_getElem? ht, rfl, rfl⟩

/-- Marking all outputs succeeds for distinct intermediate tensors only. -/
theorem Indexed.foldlM_markOutput_eq_ok (h : r.Indexed) {names : List String} {r' : Registry}
    (hr : names.foldlM Registry.markOutput r = .ok r') :
    r'.Indexed ∧ r'.tensors = r.tensors.map (·.marked names) ∧ names.Nodup ∧
      ∀ name ∈ names, ∃ t ∈ r.tensors, t.tensor.name = name ∧ t.role = .intermediate := by
  induction names generalizing r with
  | nil =>
    obtain rfl := Except.pure_eq_ok.1 hr
    refine ⟨h, ?_, List.nodup_nil, nofun⟩
    simp [RegisteredTensor.marked]
  | cons name names ih =>
    rw [List.foldlM_cons] at hr
    obtain ⟨marked, hmarked, hr⟩ := Except.bind_eq_ok.1 hr
    obtain ⟨hindexed, htensors, hintermediate⟩ := h.markOutput_eq_ok hmarked
    obtain ⟨hindexed', htensors', hnodup, hall⟩ := ih hindexed hr
    -- What is intermediate after the first output was marked has another name.
    have hbefore : ∀ t ∈ marked.tensors, t.role = .intermediate →
        t ∈ r.tensors ∧ t.tensor.name ≠ name := by
      intro t ht hrole
      rw [htensors] at ht
      obtain ⟨u, hu, rfl⟩ := List.mem_map.1 ht
      by_cases hname : u.tensor.name = name
      · rw [marked_singleton hname] at hrole
        cases hrole
      · have hsame : u.marked [name] = u := if_neg (by simpa using hname)
        rw [hsame]
        exact ⟨hu, hname⟩
    refine ⟨hindexed', ?_, List.nodup_cons.2 ⟨?_, hnodup⟩, ?_⟩
    · rw [htensors', htensors, List.map_map]
      exact List.map_congr_left fun t _ => marked_cons name names t
    · intro hmem
      obtain ⟨t, ht, hname, hrole⟩ := hall name hmem
      exact (hbefore t ht hrole).2 hname
    · intro other hother
      rcases List.mem_cons.1 hother with rfl | hother
      · exact hintermediate
      · obtain ⟨t, ht, hname, hrole⟩ := hall other hother
        exact ⟨t, (hbefore t ht hrole).1, hname, hrole⟩

end Registry

end Stencil
