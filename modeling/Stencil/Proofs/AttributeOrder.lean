import Stencil.Proofs.Requirements

/-!
# The order of attributes

Attributes have names and no order. Read one after another in any order they give the same record, and
of a node that is refused the error is the same as well, as long as not two of them are wrong by themselves.
-/

namespace Stencil

/-- The node with other attributes. -/
def Node.withAttributes (n : Node) (entries : Attributes) : Node := { n with attributes := entries }

namespace ConvAttributes

variable {operator : Operator} {a : ConvAttributes} {entries entries' : Attributes}

theorem overlay_of_perm (h : (entries.map Prod.fst).Nodup) (hperm : entries.Perm entries') (a : ConvAttributes) :
    a.overlay entries = a.overlay entries' := by
  simp only [overlay, Association.find?_of_perm h hperm]

/-- Distinct names are read if and only if all are known with their values. -/
theorem ofEntries_eq_ok_iff (h : (entries.map Prod.fst).Nodup) :
    ofEntries operator entries = .ok a ↔ (∀ entry ∈ entries, Known entry) ∧ overlay {} entries = a := by
  by_cases hknown : ∀ entry ∈ entries, Known entry
  · rw [ofEntries, foldlM_read_eq_ok hknown h]
    simpa using fun _ => hknown
  · have hunknown : ∃ entry ∈ entries, ¬ Known entry := by simpa using hknown
    obtain ⟨entry, -, -, reason, herror⟩ : ∃ entry ∈ entries, ¬ Known entry ∧
        ∃ reason, ofEntries operator entries = .error (.invalidAttribute entry.1 reason) :=
      foldlM_read_eq_error hunknown
    rw [herror]
    exact iff_of_false (by simp) fun hall => hknown hall.1

theorem ofEntries_eq_ok_of_perm (h : (entries.map Prod.fst).Nodup) (hperm : entries.Perm entries')
    (hread : ofEntries operator entries = .ok a) : ofEntries operator entries' = .ok a := by
  obtain ⟨hknown, hoverlay⟩ := (ofEntries_eq_ok_iff h).1 hread
  have h' : (entries'.map Prod.fst).Nodup := (hperm.map Prod.fst).nodup_iff.1 h
  refine (ofEntries_eq_ok_iff h').2 ⟨fun entry hentry => hknown entry (hperm.mem_iff.2 hentry), ?_⟩
  rw [← overlay_of_perm h hperm, hoverlay]

/-! ## A single fault -/

/-- What is wrong with an entry does not depend on those before it. -/
theorem read_eq_error_of_eq {entry : String × AttributeValue} {e : ResolveError}
    (h : read operator a entry = .error e) (a' : ConvAttributes) : read operator a' entry = .error e := by
  obtain ⟨name, value⟩ := entry
  unfold read at h ⊢
  dsimp only at h ⊢
  split at h
  case h_6 =>
    -- A policy can fail in two ways: it is no text, or no policy has that name.
    rcases Except.bind_eq_error.1 h with htext | ⟨text, htext, h⟩
    · exact Except.bind_eq_error.2 (.inl htext)
    · refine Except.bind_eq_error.2 (.inr ⟨text, htext, ?_⟩)
      split at h
      · cases h
      · exact h
  case h_7 => exact h
  all_goals exact Except.bind_pure_eq_error.2 (Except.bind_pure_eq_error.1 h)

/-- The only entry that is wrong is reported, wherever it stands. -/
theorem foldlM_read_eq_error_of_unique {wrong : String × AttributeValue} {e : ResolveError}
    (hwrong : read operator {} wrong = .error e) (hmem : wrong ∈ entries)
    (hunique : ∀ entry ∈ entries, ¬ Known entry → entry = wrong) :
    entries.foldlM (read operator) a = .error e := by
  -- The known entries before the wrong one are read first, hence the induction for any record.
  induction entries generalizing a with
  | nil => cases hmem
  | cons entry entries ih =>
    rw [List.foldlM_cons]
    by_cases hentry : Known entry
    · have hrest : wrong ∈ entries := by
        refine (List.mem_cons.1 hmem).resolve_left ?_
        rintro rfl
        rw [read_of_known hentry] at hwrong
        cases hwrong
      rw [read_of_known hentry]
      exact ih hrest fun entry' hentry' => hunique entry' (List.mem_cons_of_mem entry hentry')
    · obtain rfl : entry = wrong := hunique entry List.mem_cons_self hentry
      rw [read_eq_error_of_eq hwrong a]
      rfl

theorem ofEntries_of_perm (h : (entries.map Prod.fst).Nodup) (hperm : entries.Perm entries')
    (hunique : ∀ entry ∈ entries, ∀ entry' ∈ entries, ¬ Known entry → ¬ Known entry' → entry = entry') :
    ofEntries operator entries = ofEntries operator entries' := by
  by_cases hknown : ∀ entry ∈ entries, Known entry
  · have hread : ofEntries operator entries = .ok (overlay {} entries) := (ofEntries_eq_ok_iff h).2 ⟨hknown, rfl⟩
    rw [hread, ofEntries_eq_ok_of_perm h hperm hread]
  · obtain ⟨wrong, hmem, hwrong⟩ : ∃ entry ∈ entries, ¬ Known entry := by simpa using hknown
    obtain ⟨reason, herror⟩ : ∃ reason, read operator {} wrong = .error (.invalidAttribute wrong.1 reason) :=
      read_of_not_known hwrong
    have honly : ∀ entry ∈ entries, ¬ Known entry → entry = wrong := fun entry hentry hunknown =>
      hunique entry hentry wrong hmem hunknown hwrong
    have honly' : ∀ entry ∈ entries', ¬ Known entry → entry = wrong := fun entry hentry =>
      honly entry (hperm.mem_iff.2 hentry)
    rw [ofEntries, ofEntries, foldlM_read_eq_error_of_unique herror hmem honly,
      foldlM_read_eq_error_of_unique herror (hperm.mem_iff.1 hmem) honly']

end ConvAttributes

namespace Node

variable {n : Node} {entries : Attributes}

/-- Of the attributes only what is read from them matters. -/
theorem convolution_withAttributes
    (h : ConvAttributes.ofEntries n.operator n.attributes = ConvAttributes.ofEntries n.operator entries) :
    (n.withAttributes entries).convolution = n.convolution := by
  rw [convolution, convolution, convRequest, convRequest, h]
  rfl

theorem convolution_eq_ok_of_perm {c : Convolution} (h : (n.attributes.map Prod.fst).Nodup)
    (hperm : n.attributes.Perm entries) (hc : n.convolution = .ok c) :
    (n.withAttributes entries).convolution = .ok c := by
  obtain ⟨data, weights, a, r, hrequests, -⟩ := convolution_eq_ok_iff.1 hc
  have hread : ConvAttributes.ofEntries n.operator n.attributes = .ok a := hrequests.attributes_eq
  have hsame := ConvAttributes.ofEntries_eq_ok_of_perm h hperm hread
  rwa [convolution_withAttributes (hread.trans hsame.symm)]

/-- In another order the attributes of a node make the same convolution of it. If they make none, the
error is the same one, unless there are two attributes of which each is wrong by itself. -/
theorem convolution_of_perm (h : (n.attributes.map Prod.fst).Nodup) (hperm : n.attributes.Perm entries) :
    (∀ c, (n.withAttributes entries).convolution = .ok c ↔ n.convolution = .ok c) ∧
      ((∀ entry ∈ n.attributes, ∀ entry' ∈ n.attributes,
          ¬ ConvAttributes.Known entry → ¬ ConvAttributes.Known entry' → entry = entry') →
        (n.withAttributes entries).convolution = n.convolution) := by
  have h' : ((n.withAttributes entries).attributes.map Prod.fst).Nodup := (hperm.map Prod.fst).nodup_iff.1 h
  have hperm' : (n.withAttributes entries).attributes.Perm n.attributes := hperm.symm
  refine ⟨fun c => ⟨fun hc => ?_, fun hc => ?_⟩, fun hunique => ?_⟩
  · have hback : ((n.withAttributes entries).withAttributes n.attributes).convolution = .ok c :=
      convolution_eq_ok_of_perm h' hperm' hc
    exact hback
  · exact convolution_eq_ok_of_perm h hperm hc
  · exact convolution_withAttributes (ConvAttributes.ofEntries_of_perm h hperm hunique)

end Node

/-- Its mode is no attribute of a convolution. Its strides, dilations, pads and groups are, but their values
are refused. -/
def ceilingNode : Node :=
  dilatedNode.withAttributes (dilatedNode.attributes ++ [("ceil_mode", .int 1)])

/-- Whether the mode comes last or first, it is what is reported. -/
theorem convolution_of_perm_ceilingNode :
    (ceilingNode.attributes.map Prod.fst).Nodup ∧
      (ceilingNode.withAttributes ceilingNode.attributes.reverse).convolution = ceilingNode.convolution ∧
      ceilingNode.convolution = .error (.invalidAttribute "ceil_mode" (.unexpected .conv "ceil_mode")) := by
  have hnodup : (ceilingNode.attributes.map Prod.fst).Nodup := by decide
  have honly : ∀ entry ∈ ceilingNode.attributes, ¬ ConvAttributes.Known entry → entry = ("ceil_mode", .int 1) := by
    intro entry hentry hunknown
    simp only [ceilingNode, Node.withAttributes, dilatedNode, List.cons_append, List.nil_append, List.mem_cons,
      List.not_mem_nil, or_false] at hentry
    rcases hentry with rfl | rfl | rfl | rfl | rfl
    · exact absurd (.group 2) hunknown
    · exact absurd (.pads [-1]) hunknown
    · exact absurd (.dilations [1, 2]) hunknown
    · exact absurd (.strides [2, 1]) hunknown
    · rfl
  have hsame := (Node.convolution_of_perm hnodup (List.reverse_perm _).symm).2
    fun entry hentry entry' hentry' hunknown hunknown' =>
      (honly entry hentry hunknown).trans (honly entry' hentry' hunknown').symm
  exact ⟨hnodup, hsame, rfl⟩

end Stencil
