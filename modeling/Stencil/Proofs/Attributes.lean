import Stencil.Convolution
import Stencil.Model.Decode
import Stencil.Proofs.Keys
import Stencil.Proofs.Outcome

/-!
# Reading attributes

The attributes of a convolution are read one after another into a record. That succeeds
if each has a known name and a value of its kind, and as long as no name comes twice, the
record then holds the value of every name.
-/

namespace Stencil

/-- Further fields leave every name in the attributes once. -/
theorem Attributes.nodup_names_foldlM {levels : Nat} {fields : List (String × Json)} {before attributes : Attributes}
    (hbefore : (before.map Prod.fst).Nodup)
    (h : fields.foldlM (fun attributes (name, v) => do
      return attributes.put name (← AttributeValue.decode levels v)) before = Except.ok attributes) :
    (attributes.map Prod.fst).Nodup := by
  induction fields generalizing before with
  | nil =>
    obtain rfl := Except.pure_eq_ok.1 h
    exact hbefore
  | cons field fields ih =>
    rw [List.foldlM_cons] at h
    obtain ⟨next, hnext, h⟩ := Except.bind_eq_ok.1 h
    obtain ⟨value, -, hnext⟩ := Except.bind_eq_ok.1 hnext
    obtain rfl := Except.pure_eq_ok.1 hnext
    exact ih (Association.nodup_keys_put hbefore value) h

/-- Where a model gives a name more than once, the attributes hold it once. -/
theorem Attributes.nodup_names_decode {levels : Nat} {v : Json} {attributes : Attributes}
    (h : Attributes.decode levels v = .ok attributes) : (attributes.map Prod.fst).Nodup := by
  cases v with
  | object fields =>
    have hempty : (([] : Attributes).map Prod.fst).Nodup := List.nodup_nil
    exact nodup_names_foldlM hempty h
  | _ => cases h

/-- Give an attribute a value, in place of any that it had. -/
def Attributes.set (attributes : Attributes) (name : String) (value : AttributeValue) : Attributes :=
  attributes.erase name ++ [(name, value)]

namespace ConvAttributes

/-- An attribute that convolutions have, with a value of its kind. -/
inductive Known : String × AttributeValue → Prop where
  | kernelShape (values : List Int) : Known ("kernel_shape", .ints values)
  | strides (values : List Int) : Known ("strides", .ints values)
  | dilations (values : List Int) : Known ("dilations", .ints values)
  | pads (values : List Int) : Known ("pads", .ints values)
  | group (value : Int) : Known ("group", .int value)
  | autoPad (policy : AutoPad) : Known ("auto_pad", .text policy.name)

/-- The values of the entries, where there are any, in place of the given ones. -/
def overlay (a : ConvAttributes) (entries : Attributes) : ConvAttributes where
  kernelShape := (entries.find? "kernel_shape").elim a.kernelShape AttributeValue.ints?
  strides := (entries.find? "strides").elim a.strides AttributeValue.ints?
  dilations := (entries.find? "dilations").elim a.dilations AttributeValue.ints?
  pads := (entries.find? "pads").elim a.pads AttributeValue.ints?
  autoPad := ((entries.find? "auto_pad").map fun v =>
    (v.text?.bind AutoPad.ofName?).getD .notSet).getD a.autoPad
  group := ((entries.find? "group").map fun v => v.int?.getD 1).getD a.group

variable {operator : Operator} {a : ConvAttributes} {entry : String × AttributeValue}

theorem read_of_known (h : Known entry) : read operator a entry = .ok (a.overlay [entry]) := by
  cases h with
  | autoPad policy => cases policy <;> rfl
  | _ => rfl

/-- What is not known is refused by name, whatever has been read before. -/
theorem read_of_not_known (h : ¬ Known entry) :
    ∃ reason, read operator a entry = .error (.invalidAttribute entry.1 reason) := by
  obtain ⟨name, value⟩ := entry
  unfold read
  dsimp only
  -- One case for each name, and last the names that no convolution has.
  split
  next =>
    cases value with
    | ints values => exact absurd (.kernelShape values) h
    | _ => exact ⟨_, rfl⟩
  next =>
    cases value with
    | ints values => exact absurd (.strides values) h
    | _ => exact ⟨_, rfl⟩
  next =>
    cases value with
    | ints values => exact absurd (.dilations values) h
    | _ => exact ⟨_, rfl⟩
  next =>
    cases value with
    | ints values => exact absurd (.pads values) h
    | _ => exact ⟨_, rfl⟩
  next =>
    cases value with
    | int value => exact absurd (.group value) h
    | _ => exact ⟨_, rfl⟩
  next =>
    cases value with
    | text text =>
      simp only [expectText, AttributeValue.text?, bind, Except.bind]
      cases hpolicy : AutoPad.ofName? text with
      | none => exact ⟨_, rfl⟩
      | some policy =>
        have hname := List.find?_some (p := fun known : AutoPad => known.name == text) hpolicy
        obtain rfl := eq_of_beq hname
        exact absurd (.autoPad policy) h
    | _ => exact ⟨_, rfl⟩
  next => exact ⟨_, rfl⟩

/-! ## All attributes -/

/-- Values of other names do not depend on the one read before. -/
theorem overlay_cons (a : ConvAttributes) {entries : Attributes} (h : Known entry)
    (hfresh : entry.1 ∉ entries.map Prod.fst) : (a.overlay [entry]).overlay entries = a.overlay (entry :: entries) := by
  have hnone : entries.find? entry.1 = none := Association.find?_eq_none.2 hfresh
  cases h <;> simp [overlay, Association.find?_cons, hnone]

theorem foldlM_read_eq_ok {entries : Attributes} (h : ∀ entry ∈ entries, Known entry)
    (hnodup : (entries.map Prod.fst).Nodup) :
    entries.foldlM (read operator) a = .ok (a.overlay entries) := by
  induction entries generalizing a with
  | nil => rfl
  | cons entry entries ih =>
    obtain ⟨hfresh, hnodup⟩ := List.nodup_cons.1 hnodup
    have hentry : Known entry := h entry List.mem_cons_self
    rw [List.foldlM_cons, read_of_known hentry, ← overlay_cons a hentry hfresh]
    exact ih (fun e he => h e (List.mem_cons_of_mem entry he)) hnodup

theorem foldlM_read_eq_error {entries : Attributes} (h : ∃ entry ∈ entries, ¬ Known entry) :
    ∃ entry ∈ entries, ¬ Known entry ∧
      ∃ reason, entries.foldlM (read operator) a = .error (.invalidAttribute entry.1 reason) := by
  induction entries generalizing a with
  | nil => exact absurd h (by simp)
  | cons entry entries ih =>
    by_cases hentry : Known entry
    · have hrest : ∃ e ∈ entries, ¬ Known e := by
        obtain ⟨e, he, hunknown⟩ := h
        rcases List.mem_cons.1 he with rfl | he
        · exact absurd hentry hunknown
        · exact ⟨e, he, hunknown⟩
      obtain ⟨e, he, hunknown, reason, herror⟩ := ih (a := a.overlay [entry]) hrest
      refine ⟨e, List.mem_cons_of_mem entry he, hunknown, reason, ?_⟩
      rw [List.foldlM_cons, read_of_known hentry]
      exact herror
    · obtain ⟨reason, herror⟩ : ∃ reason, read operator a entry = .error (.invalidAttribute entry.1 reason) :=
        read_of_not_known hentry
      refine ⟨entry, List.mem_cons_self, hentry, reason, ?_⟩
      rw [List.foldlM_cons, herror]
      rfl

/-! ## Changed attributes -/

theorem known_of_read_eq_ok {a' : ConvAttributes} (h : read operator a entry = .ok a') : Known entry := by
  by_contra hunknown
  obtain ⟨reason, herror⟩ : ∃ reason, read operator a entry = .error (.invalidAttribute entry.1 reason) :=
    read_of_not_known hunknown
  rw [herror] at h
  cases h

/-- The attributes with the default in place of what the name stands for. -/
def without (a : ConvAttributes) (name : String) : ConvAttributes where
  kernelShape := if name = "kernel_shape" then none else a.kernelShape
  strides := if name = "strides" then none else a.strides
  dilations := if name = "dilations" then none else a.dilations
  pads := if name = "pads" then none else a.pads
  autoPad := if name = "auto_pad" then .notSet else a.autoPad
  group := if name = "group" then 1 else a.group

theorem without_default (name : String) : ({} : ConvAttributes).without name = {} := by
  simp [without]

theorem without_overlay_same (h : Known entry) : (a.overlay [entry]).without entry.1 = a.without entry.1 := by
  cases h <;> rfl

theorem without_overlay_ne (h : Known entry) {name : String} (hne : entry.1 ≠ name) :
    (a.overlay [entry]).without name = (a.without name).overlay [entry] := by
  cases h <;> simp [without, overlay, Association.find?_cons, hne.symm] at hne ⊢

theorem overlay_without_same (h : Known entry) : (a.without entry.1).overlay [entry] = a.overlay [entry] := by
  cases h <;> rfl

/-- Without the entries of a name, its default is read. -/
theorem foldlM_read_erase {entries : Attributes} {a' : ConvAttributes}
    (h : entries.foldlM (read operator) a = .ok a') (name : String) :
    (entries.erase name).foldlM (read operator) (a.without name) = .ok (a'.without name) := by
  induction entries generalizing a with
  | nil =>
    obtain rfl := Except.pure_eq_ok.1 h
    rfl
  | cons entry entries ih =>
    rw [List.foldlM_cons] at h
    obtain ⟨next, hnext, h⟩ := Except.bind_eq_ok.1 h
    have hentry := known_of_read_eq_ok hnext
    obtain rfl : a.overlay [entry] = next := Except.ok.inj ((read_of_known hentry).symm.trans hnext)
    have hrest := ih h
    by_cases hname : entry.1 = name
    · subst hname
      rwa [Association.erase, List.filter_cons_of_neg (by simp), ← without_overlay_same hentry]
    · rw [Association.erase, List.filter_cons_of_pos (by simpa using hname), List.foldlM_cons,
        read_of_known hentry, ← without_overlay_ne hentry hname]
      exact hrest

theorem ofEntries_erase {entries : Attributes} (h : ofEntries operator entries = .ok a) (name : String) :
    ofEntries operator (entries.erase name) = .ok (a.without name) := by
  rw [ofEntries, ← without_default name]
  exact foldlM_read_erase h name

/-- What no entry gives has its default. -/
theorem without_of_find?_eq_none {entries : Attributes} (h : ofEntries operator entries = .ok a) {name : String}
    (hnone : entries.find? name = none) : a.without name = a := by
  have herased := ofEntries_erase h name
  rw [Association.erase_of_notMem (Association.find?_eq_none.1 hnone), h] at herased
  exact (Except.ok.inj herased).symm

/-- A value that takes the place of all others of its name is read. -/
theorem ofEntries_set {entries : Attributes} (h : ofEntries operator entries = .ok a) {name : String}
    {value : AttributeValue} (hknown : Known (name, value)) :
    ofEntries operator (entries.set name value) = .ok (a.overlay [(name, value)]) := by
  have herased : (entries.erase name).foldlM (read operator) {} = .ok (a.without name) := ofEntries_erase h name
  rw [ofEntries, Attributes.set, List.foldlM_append, herased, Except.ok_bind, List.foldlM_cons,
    read_of_known hknown, overlay_without_same hknown]
  rfl

end ConvAttributes

end Stencil
