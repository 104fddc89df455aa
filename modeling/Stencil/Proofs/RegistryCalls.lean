import Mathlib.Data.List.Induction
import Stencil.Proofs.Keys
import Stencil.Proofs.Registry

/-!
# Calls on a registry

A registry is changed by calls, in any order and with any arguments, and a call may fail.
After any calls both indexes hold exactly the keys and positions of the tensors, no name
and no C name is held twice, and the values of every initializer fit it. A call that fails
changes nothing, and one that succeeds adds a tensor or turns an intermediate one into an
output.
-/

namespace Stencil

/-- An index with distinct keys has those of the elements, in some order. -/
theorem Indexes.keys_perm {α : Type} {key : α → String} {l : List α} {entries : Association Nat}
    (h : Indexes key l entries) (hnodup : (entries.map Prod.fst).Nodup) :
    (entries.map Prod.fst).Perm (l.map key) := by
  rw [List.perm_ext_iff_of_nodup hnodup h.nodup]
  intro name
  rw [← Association.find?_ne_none, Ne, h.find?_eq_none, not_not]

/-! ## Values of initializers -/

/-- As many values as the tensor has elements, of its type: integers in its range or finite
floats. Integers may stand for floats, but not the other way around. -/
def TensorData.Fits (t : Tensor) (data : TensorData) : Prop :=
  data.length = t.size ∧
    match data with
    | .ints values => ∀ range, t.type.range? = some range → ∀ v ∈ values, range.1 ≤ v ∧ v ≤ range.2
    | .floats values => t.type = .float32 ∧ ∀ v ∈ values, v.isFinite

def Role.Fits (t : Tensor) : Role → Prop
  | .initializer data => data.Fits t
  | _ => True

theorem ElementType.range?_eq_none {type : ElementType} : type.range? = none ↔ type = .float32 := by
  cases type <;> simp [range?]

theorem checkInitializer_eq_ok {t : Tensor} {data : TensorData} {u : Unit} :
    checkInitializer t data = .ok u ↔ data.Fits t := by
  unfold checkInitializer TensorData.Fits
  by_cases hlength : data.length = t.size
  · rw [if_neg (not_not_intro hlength)]
    simp only [hlength, true_and]
    cases data with
    | ints values =>
      cases hrange : t.type.range? with
      | none => simp
      | some range =>
        obtain ⟨least, greatest⟩ := range
        simp only [Option.some.injEq, forall_eq']
        cases hfind : values.find? fun v => decide (v < least) || decide (greatest < v) with
        | none => simpa using hfind
        | some value =>
          simp only [reduceCtorEq, false_iff]
          intro hall
          have hin := hall value (List.mem_of_find?_eq_some hfind)
          have hout := List.find?_some hfind
          simp only [Bool.or_eq_true, decide_eq_true_eq] at hout
          omega
    | floats values =>
      rw [← ElementType.range?_eq_none]
      cases hrange : t.type.range? with
      | some range => simp
      | none =>
        simp only [true_and]
        cases hfind : values.find? fun v => !v.isFinite with
        | none => simpa using hfind
        | some value =>
          simp only [reduceCtorEq, false_iff]
          intro hall
          have hout := List.find?_some hfind
          simp [hall value (List.mem_of_find?_eq_some hfind)] at hout
  · simp [hlength]

theorem Role.check_eq_ok {role : Role} {t : Tensor} {u : Unit} :
    role.check t = .ok u ↔ role.Fits t := by
  cases role with
  | initializer data => exact Except.mapError_eq_ok.trans checkInitializer_eq_ok
  | _ => simp [check, Fits]

/-! ## Roles -/

/-- Of a stored tensor nothing but its role changes, and that only from intermediate to output. -/
def RegisteredTensor.Becomes (t u : RegisteredTensor) : Prop :=
  u = t ∨ t.role = .intermediate ∧ u = { t with role := .output }

theorem RegisteredTensor.Becomes.trans {t u v : RegisteredTensor} (htu : t.Becomes u)
    (huv : u.Becomes v) : t.Becomes v := by
  rcases htu with rfl | ⟨hrole, rfl⟩
  · exact huv
  · rcases huv with rfl | ⟨hrole', -⟩
    · exact .inr ⟨hrole, rfl⟩
    · cases hrole'

namespace Registry

/-! ## Calls -/

/-- A call that may change a registry. -/
inductive Call where
  | register (t : Tensor) (role : Role)
  | markOutput (name : String)
deriving DecidableEq, Repr

/-- The registry that a call asks for. -/
def perform (r : Registry) : Call → Except BuildError Registry
  | .register t role => r.register t role
  | .markOutput name => r.markOutput name

/-- Steps that change a registry in place. The first that fails ends them, and what the
ones before it have changed stays changed. -/
abbrev Editing : Type → Type := EStateM BuildError Registry

namespace Editing

variable {α β : Type}

/-- Look something up that may fail. -/
def ask (question : Registry → Except BuildError α) : Editing α := fun r =>
  match question r with
  | .ok a => .ok a r
  | .error e => .error e r

def register (t : Tensor) (role : Role) : Editing Unit := do
  ask fun r => if (r.byName.find? t.name).isSome then .error (.duplicateTensor t.name) else .ok ()
  ask fun _ => role.check t
  let registered : RegisteredTensor := ⟨t, role⟩
  ask (·.checkCName registered.cName t.name)
  let position ← ask (.ok ·.size)
  modify fun r => { r with byName := r.byName.put t.name position }
  modify fun r => { r with byCName := r.byCName.put registered.cName position }
  modify fun r => { r with tensors := r.tensors ++ [registered] }

def markOutput (name : String) : Editing Unit := do
  let position ← ask (·.intermediatePosition name)
  ask (·.checkCName (C.identifier name) name)
  modify fun r => { r with byCName := r.byCName.erase ("tensor_" ++ C.identifier name) }
  modify fun r => { r with byCName := r.byCName.put (C.identifier name) position }
  modify fun r => { r with tensors := r.tensors.modify position fun t => { t with role := .output } }

theorem ask_bind (question : Registry → Except BuildError α) (next : α → Editing β) (r : Registry) :
    (ask question >>= next) r =
      match question r with
      | .ok a => next a r
      | .error e => .error e r := by
  unfold ask
  simp only [bind, EStateM.bind]
  cases question r <;> rfl

end Editing

/-- A call as it changes a registry in place. -/
def Call.edit : Call → Editing Unit
  | register t role => Editing.register t role
  | markOutput name => Editing.markOutput name

/-- What a registry has become after a call, whether or not it failed. -/
def after (r : Registry) (call : Call) : Registry :=
  match call.edit r with
  | .ok _ r' => r'
  | .error _ r' => r'

def afterAll (calls : List Call) : Registry := calls.foldl after .empty

/-- Every change comes after the last check, so that a call changes all that it asks for, or
nothing. -/
theorem edit_eq (r : Registry) (call : Call) :
    call.edit r =
      match r.perform call with
      | .ok r' => .ok () r'
      | .error e => .error e r := by
  cases call with
  | register t role =>
    simp only [Call.edit, perform, Editing.register, Registry.register, Editing.ask_bind]
    by_cases hname : (r.byName.find? t.name).isSome
    · simp only [if_pos hname]
    · rw [if_neg hname, if_neg hname]
      cases role.check t with
      | error e => rfl
      | ok u =>
        cases r.checkCName (RegisteredTensor.cName ⟨t, role⟩) t.name with
        | error e => rfl
        | ok u => rfl
  | markOutput name =>
    simp only [Call.edit, perform, Editing.markOutput, Registry.markOutput, Editing.ask_bind]
    cases r.intermediatePosition name with
    | error e => rfl
    | ok position =>
      cases r.checkCName (C.identifier name) name with
      | error e => rfl
      | ok u => rfl

theorem after_eq (r : Registry) (call : Call) :
    r.after call =
      match r.perform call with
      | .ok r' => r'
      | .error _ => r := by
  rw [after, edit_eq]
  cases r.perform call <;> rfl

/-! ## What a call does -/

/-- When a call succeeds. A tensor needs a new name, a new C name and values that fit it;
an output has been intermediate so far, and its C name as a parameter is new. -/
def Accepts (r : Registry) : Call → Prop
  | .register t role =>
    t.name ∉ r.tensors.map (·.tensor.name) ∧ role.Fits t ∧
      RegisteredTensor.cName ⟨t, role⟩ ∉ r.tensors.map RegisteredTensor.cName
  | .markOutput name =>
    (∃ t, ⟨t, .intermediate⟩ ∈ r.tensors ∧ t.name = name) ∧
      C.identifier name ∉ r.tensors.map RegisteredTensor.cName

/-- The tensors after a call that succeeds. -/
def Changes (r : Registry) : Call → List RegisteredTensor → Prop
  | .register t role, tensors => tensors = r.tensors ++ [⟨t, role⟩]
  | .markOutput name, tensors =>
    ∃ position t, r.tensors[position]? = some ⟨t, .intermediate⟩ ∧ t.name = name ∧
      tensors = r.tensors.set position ⟨t, .output⟩

variable {r r' : Registry} {call : Call}

theorem Indexed.perform_of_accepts (h : r.Indexed) (ha : r.Accepts call) :
    ∃ r', r.perform call = .ok r' := by
  cases call with
  | register t role =>
    obtain ⟨hname, hfits, hcName⟩ := ha
    exact ⟨_, h.register_eq_ok_iff.2 ⟨hname, Role.check_eq_ok.2 hfits, hcName, rfl⟩⟩
  | markOutput name =>
    obtain ⟨⟨t, ht, hname⟩, hcName⟩ := ha
    obtain ⟨position, hposition⟩ := List.mem_iff_getElem?.1 ht
    exact ⟨_, h.markOutput_eq_ok_iff.2 ⟨position, t, hposition, hname, hcName, rfl⟩⟩

theorem Indexed.perform_eq_ok (h : r.Indexed) (hr : r.perform call = .ok r') :
    r.Accepts call ∧ r.Changes call r'.tensors := by
  cases call with
  | register t role =>
    obtain ⟨hname, hcheck, hcName, rfl⟩ := h.register_eq_ok_iff.1 hr
    exact ⟨⟨hname, Role.check_eq_ok.1 hcheck, hcName⟩, rfl⟩
  | markOutput name =>
    obtain ⟨position, t, ht, hname, hcName, rfl⟩ := h.markOutput_eq_ok_iff.1 hr
    refine ⟨⟨⟨t, List.mem_of_getElem? ht, hname⟩, hcName⟩, position, t, ht, hname, ?_⟩
    exact List.modify_eq_set_getElem? _ _ _ |>.trans (by rw [ht]; rfl)

/-! ## Consistency -/

/-- The tensors, their indexes and the values of the initializers belong together. -/
structure Consistent (r : Registry) : Prop extends Indexed r where
  nameKeys : (r.byName.map Prod.fst).Perm (r.tensors.map (·.tensor.name))
  cNameKeys : (r.byCName.map Prod.fst).Perm (r.tensors.map RegisteredTensor.cName)
  names_nodup : (r.tensors.map (·.tensor.name)).Nodup
  cNames_nodup : (r.tensors.map RegisteredTensor.cName).Nodup
  fits : ∀ t ∈ r.tensors, t.role.Fits t.tensor

theorem Indexed.consistent (h : r.Indexed) (hname : (r.byName.map Prod.fst).Nodup)
    (hcName : (r.byCName.map Prod.fst).Nodup) (hfits : ∀ t ∈ r.tensors, t.role.Fits t.tensor) :
    r.Consistent :=
  { h with
    nameKeys := h.byName.keys_perm hname
    cNameKeys := h.byCName.keys_perm hcName
    names_nodup := h.byName.nodup
    cNames_nodup := h.byCName.nodup
    fits := hfits }

theorem Consistent.empty : Registry.empty.Consistent :=
  Indexed.empty.consistent List.nodup_nil List.nodup_nil nofun

/-- A call that succeeds keeps a registry consistent. -/
theorem Consistent.perform (h : r.Consistent) (hr : r.perform call = .ok r') : r'.Consistent := by
  have hname := h.nameKeys.nodup_iff.2 h.names_nodup
  have hcName := h.cNameKeys.nodup_iff.2 h.cNames_nodup
  cases call with
  | register t role =>
    obtain ⟨hindexed, htensors⟩ := h.toIndexed.register_eq_ok hr
    obtain ⟨-, hcheck, -, rfl⟩ := h.toIndexed.register_eq_ok_iff.1 hr
    refine hindexed.consistent (Association.nodup_keys_put hname _)
      (Association.nodup_keys_put hcName _) fun u hu => ?_
    rw [htensors, List.mem_append, List.mem_singleton] at hu
    rcases hu with hu | rfl
    · exact h.fits u hu
    · exact Role.check_eq_ok.1 hcheck
  | markOutput name =>
    obtain ⟨hindexed, htensors, -⟩ := h.toIndexed.markOutput_eq_ok hr
    obtain ⟨position, t, -, -, -, rfl⟩ := h.toIndexed.markOutput_eq_ok_iff.1 hr
    refine hindexed.consistent hname
      (Association.nodup_keys_put (Association.nodup_keys_erase hcName) _) fun u hu => ?_
    rw [htensors] at hu
    obtain ⟨v, hv, rfl⟩ := List.mem_map.1 hu
    -- An output has no values to fit it.
    unfold RegisteredTensor.marked
    split
    next => trivial
    next => exact h.fits v hv

/-- Any call keeps a registry consistent, whether or not it fails. -/
theorem Consistent.after (h : r.Consistent) (call : Call) : (r.after call).Consistent := by
  rw [after_eq]
  cases hr : r.perform call with
  | error e => exact h
  | ok r' => exact h.perform hr

theorem consistent_afterAll (calls : List Call) : (afterAll calls).Consistent := by
  induction calls using List.reverseRecOn with
  | nil => exact Consistent.empty
  | append_singleton calls call ih =>
    rw [afterAll, List.foldl_append]
    exact ih.after call

/-! ## What becomes of a tensor -/

theorem Changes.becomes {tensors : List RegisteredTensor} (h : r.Changes call tensors) {i : Nat}
    {t : RegisteredTensor} (ht : r.tensors[i]? = some t) : ∃ u, tensors[i]? = some u ∧ t.Becomes u := by
  cases call with
  | register new role =>
    obtain rfl := h
    refine ⟨t, ?_, .inl rfl⟩
    rw [List.getElem?_append_left (List.getElem?_eq_some_iff.1 ht).1, ht]
  | markOutput name =>
    obtain ⟨position, old, hold, -, rfl⟩ := h
    rw [List.getElem?_set]
    by_cases hi : position = i
    · subst hi
      obtain rfl : ⟨old, .intermediate⟩ = t := Option.some.inj (hold.symm.trans ht)
      exact ⟨_, by simp [(List.getElem?_eq_some_iff.1 ht).1], .inr ⟨rfl, rfl⟩⟩
    · exact ⟨t, by simp [hi, ht], .inl rfl⟩

theorem Indexed.becomes_after (h : r.Indexed) (call : Call) {i : Nat} {t : RegisteredTensor}
    (ht : r.tensors[i]? = some t) : ∃ u, (r.after call).tensors[i]? = some u ∧ t.Becomes u := by
  rw [after_eq]
  cases hr : r.perform call with
  | error e => exact ⟨t, ht, .inl rfl⟩
  | ok r' => exact (h.perform_eq_ok hr).2.becomes ht

theorem becomes_afterAll (calls later : List Call) {i : Nat} {t : RegisteredTensor}
    (ht : (afterAll calls).tensors[i]? = some t) :
    ∃ u, (afterAll (calls ++ later)).tensors[i]? = some u ∧ t.Becomes u := by
  induction later using List.reverseRecOn with
  | nil => exact ⟨t, by rwa [List.append_nil], .inl rfl⟩
  | append_singleton later call ih =>
    obtain ⟨u, hu, htu⟩ := ih
    have hlast : afterAll (calls ++ (later ++ [call])) = (afterAll (calls ++ later)).after call := by
      rw [← List.append_assoc, afterAll, List.foldl_append]
      rfl
    obtain ⟨v, hv, huv⟩ := (consistent_afterAll _).toIndexed.becomes_after call hu
    exact ⟨v, hlast ▸ hv, htu.trans huv⟩

/-- After any calls a registry is consistent, the next call succeeds exactly under its own
condition, and in place it changes all that it asks for or nothing; what is stored keeps its
place for good. -/
theorem afterAll_represents (calls : List Call) :
    let r := afterAll calls
    r.Consistent ∧
      (∀ call, match r.perform call with
        | .ok r' => call.edit r = .ok () r' ∧ r.Accepts call ∧ r.Changes call r'.tensors
        | .error e => call.edit r = .error e r ∧ ¬ r.Accepts call) ∧
      ∀ (later : List Call) (i : Nat) (t : RegisteredTensor), r.tensors[i]? = some t →
        ∃ u, (afterAll (calls ++ later)).tensors[i]? = some u ∧ t.Becomes u := by
  intro r
  have hr : r.Consistent := consistent_afterAll calls
  refine ⟨hr, fun call => ?_, fun later i t ht => becomes_afterAll calls later ht⟩
  rw [edit_eq]
  cases hcall : r.perform call with
  | ok r' =>
    obtain ⟨haccepts, hchanges⟩ := hr.toIndexed.perform_eq_ok hcall
    exact ⟨rfl, haccepts, hchanges⟩
  | error e =>
    refine ⟨rfl, fun haccepts => ?_⟩
    obtain ⟨r', hr'⟩ := hr.toIndexed.perform_of_accepts haccepts
    rw [hcall] at hr'
    cases hr'

end Registry

end Stencil
