import Stencil.Proofs.Identifiers

/-!
# Names with the same identifier

Only identifiers are kept as they are. Names share an identifier if they read alike, character by
character, or if one of them already has the underscore that the other needs in front.
-/

namespace Stencil.C

/-! ## Identifiers are kept -/

theorem replaceChar_of_isNameChar {c : Char} (h : isNameChar c) : replaceChar c = c := by
  unfold replaceChar
  split
  next => rfl
  next hother =>
    have hmark : c == '_' := (Bool.or_eq_true_iff.1 h).resolve_left hother
    exact (beq_iff_eq.1 hmark).symm

theorem startsIdentifier_of_isName {name : String} (h : isName name) : startsIdentifier name.toList := by
  unfold isName at h
  split at h
  next => cases h
  next c rest hchars =>
    simp only [Bool.and_eq_true] at h
    rw [hchars]
    exact h.1.2

theorem identifier_of_isName {name : String} (h : isName name) : identifier name = name := by
  have hkept : name.toList.map replaceChar = name.toList :=
    (List.map_congr_left fun c hc => replaceChar_of_isNameChar (isNameChar_of_mem h c hc)).trans (List.map_id _)
  simp only [identifier, identifierChars, hkept, startsIdentifier_of_isName h, if_true, String.ofList_toList]

theorem identifier_eq_self_iff {name : String} : identifier name = name ↔ isName name := by
  constructor
  · intro h
    exact h ▸ isName_identifier name
  · exact identifier_of_isName

/-! ## The underscore in front -/

/-- The text cannot begin an identifier: it is empty or begins with a digit. -/
def NeedsMark (text : String) : Prop := text = "" ∨ ∃ c rest, text.toList = c :: rest ∧ c.isDigit

/-- The one text is the other behind an underscore that it needs. -/
def IsMarked (marked text : String) : Prop := marked = "_" ++ text ∧ NeedsMark text

theorem needsMark_iff {text : String} : NeedsMark text ↔ ¬startsIdentifier text.toList := by
  unfold NeedsMark
  rw [← String.toList_eq_nil_iff]
  cases text.toList with
  | nil => simp [startsIdentifier]
  | cons c rest => simp [startsIdentifier]

theorem not_needsMark_append (text : String) : ¬NeedsMark ("_" ++ text) := by
  rw [needsMark_iff, String.toList_append, not_not]
  rfl

/-- A text, behind an underscore if it needs one. -/
def withMark (text : String) : String := if startsIdentifier text.toList then text else "_" ++ text

theorem withMark_of_needsMark {text : String} (h : NeedsMark text) : withMark text = "_" ++ text :=
  if_neg (needsMark_iff.1 h)

theorem withMark_of_not_needsMark {text : String} (h : ¬NeedsMark text) : withMark text = text := by
  rw [needsMark_iff, not_not] at h
  exact if_pos h

theorem identifier_eq_withMark (name : String) : identifier name = withMark (name.map replaceChar) := by
  simp only [identifier, identifierChars, withMark, ← String.toList_inj, String.toList_map, String.toList_ofList]
  split
  next => exact String.toList_map.symm
  next => simp

theorem withMark_eq_iff {x y : String} : withMark x = withMark y ↔ x = y ∨ IsMarked x y ∨ IsMarked y x := by
  constructor
  · intro h
    by_cases hx : NeedsMark x
    · rw [withMark_of_needsMark hx] at h
      by_cases hy : NeedsMark y
      · rw [withMark_of_needsMark hy] at h
        exact .inl ((String.append_right_inj "_").1 h)
      · rw [withMark_of_not_needsMark hy] at h
        exact .inr (.inr ⟨h.symm, hx⟩)
    · rw [withMark_of_not_needsMark hx] at h
      by_cases hy : NeedsMark y
      · rw [withMark_of_needsMark hy] at h
        exact .inr (.inl ⟨h, hy⟩)
      · rw [withMark_of_not_needsMark hy] at h
        exact .inl h
  · rintro (rfl | ⟨rfl, hy⟩ | ⟨rfl, hx⟩)
    · rfl
    · rw [withMark_of_not_needsMark (not_needsMark_append y), withMark_of_needsMark hy]
    · rw [withMark_of_not_needsMark (not_needsMark_append x), withMark_of_needsMark hx]

/-- What becomes of a name is an identifier, identifiers are all that is kept, and so they are kept when they
are made once more. Two names become the same identifier exactly if they read alike, character by character,
or one of them begins with the underscore that the other needs. -/
theorem identifier_projects (a b : String) :
    isName (identifier a) ∧
      identifier (identifier a) = identifier a ∧
      (identifier a = a ↔ isName a) ∧
      (identifier a = identifier b ↔
        a.map replaceChar = b.map replaceChar ∨
          IsMarked (a.map replaceChar) (b.map replaceChar) ∨
          IsMarked (b.map replaceChar) (a.map replaceChar)) := by
  refine ⟨isName_identifier a, identifier_of_isName (isName_identifier a), identifier_eq_self_iff, ?_⟩
  rw [identifier_eq_withMark, identifier_eq_withMark]
  exact withMark_eq_iff

/-- The underscore in front, of the other name itself or in the place of its only character. -/
example : identifier "1" = identifier "_1" ∧ identifier "" = identifier "?" := by decide

end Stencil.C
