import Mathlib.Data.List.Infix
import Stencil.C.Listing

/-!
# Indentation

The text of a listing is a list of lines behind their margins. Steps that are taken further inside add
the same lines behind wider margins, and so the margins can as well be put in front of text that is
already printed.
-/

namespace Stencil

/-! ## Lines written and read -/

/-- Text that stands on one line. -/
def OneLine (text : String) : Prop := '\n' ∉ text.toList ∧ '\r' ∉ text.toList

instance (text : String) : Decidable (OneLine text) := inferInstanceAs (Decidable (_ ∧ _))

/-- Lines one below the other. -/
def written (texts : List String) : String := String.join (texts.map (· ++ "\n"))

theorem written_append (texts more : List String) : written (texts ++ more) = written texts ++ written more := by
  simp [written]

theorem written_cons (text : String) (texts : List String) :
    written (text :: texts) = text ++ "\n" ++ written texts := by
  simp [written]

theorem splitLines_append {line : List Char} (hfeed : '\n' ∉ line) (hreturn : '\r' ∉ line) (rest : List Char) :
    splitLines (line ++ '\n' :: rest) = line :: splitLines rest := by
  induction line with
  | nil => rfl
  | cons c line ih =>
    rw [List.mem_cons, not_or] at hfeed hreturn
    rw [List.cons_append, splitLines, ih hfeed.2 hreturn.2]
    · exact fun h => hfeed.1 h.symm
    · exact fun _ h => absurd h.symm hreturn.1

theorem notMem_of_mem_splitLines {cs line : List Char} (h : line ∈ splitLines cs) :
    '\n' ∉ line ∧ line ⊆ cs := by
  fun_induction splitLines cs generalizing line with
  | case1 => cases h
  | case2 rest ih =>
    obtain rfl | h := List.mem_cons.1 h
    · simp
    · exact (ih h).imp_right (List.subset_cons_of_subset _)
  | case3 rest ih =>
    obtain rfl | h := List.mem_cons.1 h
    · simp
    · exact (ih h).imp_right fun hsub => List.subset_cons_of_subset _ (List.subset_cons_of_subset _ hsub)
  | case4 c rest hfeed =>
    obtain rfl := List.mem_singleton.1 h
    exact ⟨fun hmem => hfeed (List.mem_singleton.1 hmem).symm, List.cons_subset_cons c (List.nil_subset _)⟩
  | case5 c rest hfeed _ first more hrest ih =>
    rw [hrest] at ih
    obtain rfl | h := List.mem_cons.1 h
    · obtain ⟨hfirst, hsub⟩ := ih List.mem_cons_self
      refine ⟨?_, List.cons_subset_cons c hsub⟩
      rw [List.mem_cons, not_or]
      exact ⟨fun h => hfeed h.symm, hfirst⟩
    · exact (ih (List.mem_cons_of_mem _ h)).imp_right (List.subset_cons_of_subset _)

theorem lines_written {texts : List String} (h : ∀ text ∈ texts, OneLine text) : lines (written texts) = texts := by
  induction texts with
  | nil => rfl
  | cons text texts ih =>
    rw [List.forall_mem_cons] at h
    have hsplit : splitLines (written (text :: texts)).toList = text.toList :: splitLines (written texts).toList := by
      simpa [written_cons] using splitLines_append h.1.1 h.1.2 (written texts).toList
    rw [lines, hsplit, List.map_cons, String.ofList_toList]
    exact congrArg (text :: ·) (ih h.2)

theorem oneLine_of_mem_lines {text line : String} (h : '\r' ∉ text.toList) (hline : line ∈ lines text) :
    OneLine line := by
  obtain ⟨cs, hcs, rfl⟩ := List.mem_map.1 hline
  obtain ⟨hfeed, hsub⟩ := notMem_of_mem_splitLines hcs
  refine ⟨by simpa using hfeed, fun hreturn => h (hsub ?_)⟩
  simpa using hreturn

namespace C.Listing

/-- A line behind the margin of an indentation. -/
def lineAt (indent : Nat) (text : String) : String := (Listing.mk "" indent).margin ++ text

/-- A line moved to an indentation, where an empty line stays empty. -/
def moved (indent : Nat) (text : String) : String := if text.isEmpty then text else lineAt indent text

/-! ## What steps add -/

theorem line_eq (text : String) (l : Listing) : l.line text = ⟨l.text ++ written [lineAt l.indent text], l.indent⟩ := by
  simp [line, lineAt, margin, written, String.append_assoc]

theorem foldl_line_eq (texts : List String) (l : Listing) :
    texts.foldl (fun l text => l.line text) l = ⟨l.text ++ written (texts.map (lineAt l.indent)), l.indent⟩ := by
  induction texts generalizing l with
  | nil => simp [written]
  | cons text texts ih =>
    rw [List.foldl_cons, ih, line_eq, String.append_assoc, ← written_append]
    rfl

theorem blank_eq (l : Listing) : l.blank = ⟨l.text ++ written [""], l.indent⟩ := by
  simp [blank, written]

theorem blockLine_eq (text : String) (l : Listing) :
    l.blockLine text = ⟨l.text ++ written [moved l.indent text], l.indent⟩ := by
  unfold blockLine moved
  split
  next hempty => rw [blank_eq, String.isEmpty_iff.1 hempty]
  next => exact line_eq text l

theorem block_eq (text : String) (l : Listing) :
    l.block text = ⟨l.text ++ written ((lines text).map (moved l.indent)), l.indent⟩ := by
  unfold block
  induction lines text generalizing l with
  | nil => simp [written]
  | cons first more ih =>
    rw [List.foldl_cons, ih, blockLine_eq, List.map_cons, String.append_assoc, ← written_append]
    rfl

namespace Step

/-- The braces that a step opens. -/
def opens : Step → Nat
  | .enter _ => 1
  | _ => 0

/-- The braces that a step closes. -/
def closes : Step → Nat
  | .leave | .leaveWith _ => 1
  | _ => 0

/-- The lines that a step adds at an indentation. -/
def added (indent : Nat) : Step → List String
  | .line text => [lineAt indent text]
  | .blank => [""]
  | .block text => (lines text).map (moved indent)
  | .enter text => [lineAt indent (text ++ " \x7b")]
  | .leave => [lineAt (indent - 1) "\x7d"]
  | .leaveWith text => [lineAt (indent - 1) text]

/-- Only a block has several lines or an empty one, and nothing holds a carriage return. -/
def IsPlain : Step → Prop
  | .line text | .leaveWith text => text ≠ "" ∧ OneLine text
  | .block text => '\r' ∉ text.toList
  | .enter text => OneLine text
  | .blank | .leave => True

instance : DecidablePred IsPlain
  | .line _ | .leaveWith _ => inferInstanceAs (Decidable (_ ∧ _))
  | .block _ => inferInstanceAs (Decidable (¬_))
  | .enter text => inferInstanceAs (Decidable (OneLine text))
  | .blank | .leave => inferInstanceAs (Decidable True)

end Step

theorem apply_eq (l : Listing) (s : Step) :
    l.apply s = ⟨l.text ++ written (s.added l.indent), l.indent + s.opens - s.closes⟩ := by
  cases s with
  | line text => exact line_eq text l
  | blank => exact blank_eq l
  | block text => exact block_eq text l
  | enter text => simp only [apply, enter, line_eq]; rfl
  | leave => exact line_eq _ _
  | leaveWith text => exact line_eq _ _

/-! ## Runs of steps -/

def opens : List Step → Nat
  | [] => 0
  | s :: steps => s.opens + opens steps

def closes : List Step → Nat
  | [] => 0
  | s :: steps => s.closes + closes steps

/-- The lines that steps add, the first of them at an indentation. -/
def added (indent : Nat) : List Step → List String
  | [] => []
  | s :: steps => s.added indent ++ added (indent + s.opens - s.closes) steps

/-- From an indentation on, no more is closed at any point than is open. -/
def NeverBelow (indent : Nat) (steps : List Step) : Prop :=
  ∀ taken, taken <+: steps → closes taken ≤ indent + opens taken

instance (indent : Nat) (steps : List Step) : Decidable (NeverBelow indent steps) :=
  decidable_of_iff (∀ taken ∈ steps.inits, closes taken ≤ indent + opens taken) (by simp [NeverBelow])

variable {s : Step} {steps : List Step} {d k : Nat}

theorem applyAll_cons (s : Step) (steps : List Step) (l : Listing) :
    l.applyAll (s :: steps) =
      applyAll ⟨l.text ++ written (s.added l.indent), l.indent + s.opens - s.closes⟩ steps := by
  rw [← apply_eq]
  rfl

theorem text_applyAll (steps : List Step) (l : Listing) :
    (l.applyAll steps).text = l.text ++ written (added l.indent steps) := by
  induction steps generalizing l with
  | nil => simp [applyAll, added, written]
  | cons s steps ih => rw [applyAll_cons, ih, added, written_append, String.append_assoc]

theorem NeverBelow.head (h : NeverBelow k (s :: steps)) : s.closes ≤ k + s.opens :=
  h [s] (List.cons_prefix_cons.2 ⟨rfl, List.nil_prefix⟩)

theorem NeverBelow.tail (h : NeverBelow k (s :: steps)) : NeverBelow (k + s.opens - s.closes) steps := by
  intro taken htaken
  have hcons : s.closes + closes taken ≤ k + (s.opens + opens taken) :=
    h (s :: taken) (List.cons_prefix_cons.2 ⟨rfl, htaken⟩)
  omega

theorem indent_applyAll {l : Listing} (h : NeverBelow l.indent steps) :
    (l.applyAll steps).indent + closes steps = l.indent + opens steps := by
  induction steps generalizing l with
  | nil => rfl
  | cons s steps ih =>
    have hhead := h.head
    have hrest := ih (l := ⟨l.text ++ written (s.added l.indent), l.indent + s.opens - s.closes⟩) h.tail
    rw [← applyAll_cons] at hrest
    change _ + closes steps = l.indent + s.opens - s.closes + opens steps at hrest
    change _ + (s.closes + closes steps) = l.indent + (s.opens + opens steps)
    omega

/-! ## Wider margins -/

theorem margin_add (d k : Nat) :
    (Listing.mk "" (d + k)).margin = (Listing.mk "" d).margin ++ (Listing.mk "" k).margin := by
  simp only [margin, Nat.mul_add, List.replicate_add, String.ofList_append]

theorem lineAt_ne_empty {text : String} (h : text ≠ "") (k : Nat) : lineAt k text ≠ "" := by
  simp [lineAt, h]

theorem moved_of_ne_empty {text : String} (h : text ≠ "") (d : Nat) : moved d text = lineAt d text :=
  if_neg (by simpa [String.isEmpty_iff] using h)

theorem moved_lineAt {text : String} (h : text ≠ "") (d k : Nat) :
    moved d (lineAt k text) = lineAt (d + k) text := by
  rw [moved_of_ne_empty (lineAt_ne_empty h k), lineAt, lineAt, lineAt, margin_add, String.append_assoc]

theorem moved_moved (d k : Nat) (text : String) : moved d (moved k text) = moved (d + k) text := by
  by_cases h : text = ""
  · rw [h]
    rfl
  · rw [moved_of_ne_empty h k, moved_of_ne_empty h (d + k), moved_lineAt h]

/-- A step that closes no more than is open adds its lines moved. -/
theorem Step.added_add (h : s.IsPlain) (hclose : s.closes ≤ k + s.opens) (d : Nat) :
    s.added (d + k) = (s.added k).map (moved d) := by
  cases s with
  | line text => simp only [added, List.map_cons, List.map_nil, moved_lineAt h.1]
  | blank => rfl
  | block text =>
    rw [added, added, List.map_map]
    exact List.map_congr_left fun line _ => (moved_moved d k line).symm
  | enter text =>
    have hne : text ++ " \x7b" ≠ "" := by simp
    simp only [added, List.map_cons, List.map_nil, moved_lineAt hne]
  | leave =>
    have hopen : 1 ≤ k := hclose
    have hne : "\x7d" ≠ "" := by decide
    simp only [added, List.map_cons, List.map_nil, moved_lineAt hne, Nat.add_sub_assoc hopen]
  | leaveWith text =>
    have hopen : 1 ≤ k := hclose
    simp only [added, List.map_cons, List.map_nil, moved_lineAt h.1, Nat.add_sub_assoc hopen]

theorem added_add (hplain : ∀ s ∈ steps, s.IsPlain) (h : NeverBelow k steps) (d : Nat) :
    added (d + k) steps = (added k steps).map (moved d) := by
  induction steps generalizing k with
  | nil => rfl
  | cons s steps ih =>
    rw [List.forall_mem_cons] at hplain
    have hbehind : d + k + s.opens - s.closes = d + (k + s.opens - s.closes) := by
      have hhead := h.head
      omega
    rw [added, added, List.map_append, Step.added_add hplain.1 h.head, hbehind, ih hplain.2 h.tail]

/-! ## Lines read back -/

theorem oneLine_lineAt {text : String} (h : OneLine text) (k : Nat) : OneLine (lineAt k text) := by
  have hmargin : ∀ c ≠ ' ', c ∉ (Listing.mk "" k).margin.toList := by
    intro c hc hmem
    rw [margin, String.toList_ofList] at hmem
    exact hc (List.eq_of_mem_replicate hmem)
  simp only [OneLine, lineAt, String.toList_append, List.mem_append, not_or]
  exact ⟨⟨hmargin _ (by decide), h.1⟩, hmargin _ (by decide), h.2⟩

theorem oneLine_moved {text : String} (h : OneLine text) (k : Nat) : OneLine (moved k text) := by
  unfold moved
  split
  · exact h
  · exact oneLine_lineAt h k

theorem Step.oneLine_of_mem_added (h : s.IsPlain) {line : String} (hline : line ∈ s.added k) : OneLine line := by
  cases s with
  | line text =>
    obtain rfl := List.mem_singleton.1 hline
    exact oneLine_lineAt h.2 k
  | blank =>
    obtain rfl := List.mem_singleton.1 hline
    decide
  | block text =>
    obtain ⟨inner, hinner, rfl⟩ := List.mem_map.1 hline
    exact oneLine_moved (oneLine_of_mem_lines h hinner) k
  | enter text =>
    obtain rfl := List.mem_singleton.1 hline
    have htext : OneLine text := h
    exact oneLine_lineAt (by simpa [OneLine] using htext) k
  | leave =>
    obtain rfl := List.mem_singleton.1 hline
    exact oneLine_lineAt (by decide) _
  | leaveWith text =>
    obtain rfl := List.mem_singleton.1 hline
    exact oneLine_lineAt h.2 _

theorem oneLine_of_mem_added (hplain : ∀ s ∈ steps, s.IsPlain) {line : String} (hline : line ∈ added k steps) :
    OneLine line := by
  induction steps generalizing k with
  | nil => cases hline
  | cons s steps ih =>
    rw [List.forall_mem_cons] at hplain
    obtain hline | hline := List.mem_append.1 hline
    · exact Step.oneLine_of_mem_added hplain.1 hline
    · exact ih hplain.2 hline

/-- Steps that never close more than they opened add at any indentation what they add at the margin, moved to
that indentation as a block, and they change the indentation by the braces that they leave open. -/
theorem applyAll_eq_block (hplain : ∀ s ∈ steps, s.IsPlain) (hclosed : NeverBelow 0 steps) (l : Listing) :
    ∃ text indent,
      l.applyAll steps = ⟨l.text ++ text, indent⟩ ∧
      l.block (empty.applyAll steps).text = ⟨l.text ++ text, l.indent⟩ ∧
      indent + closes steps = l.indent + opens steps := by
  have hmoved : added l.indent steps = (added 0 steps).map (moved l.indent) := added_add hplain hclosed l.indent
  have hinside : NeverBelow l.indent steps := by
    intro taken htaken
    have hbelow := hclosed taken htaken
    omega
  have hfresh : (empty.applyAll steps).text = written (added 0 steps) := by
    rw [text_applyAll]
    exact String.empty_append
  refine ⟨written (added l.indent steps), (l.applyAll steps).indent, ?_, ?_, indent_applyAll hinside⟩
  · rw [← text_applyAll]
  · rw [hfresh, block_eq, lines_written fun _ => oneLine_of_mem_added hplain, ← hmoved]

/-- A function with a block, a blank line and an empty pair of braces inside. -/
def functionSteps : List Step :=
  [.enter "void f()", .block "a;\n\nb;", .blank, .enter "", .leave, .leaveWith "\x7d;"]

theorem functionSteps_applyAll :
    ∃ text indent,
      applyAll ⟨"int x;\n", 2⟩ functionSteps = ⟨"int x;\n" ++ text, indent⟩ ∧
      block (empty.applyAll functionSteps).text ⟨"int x;\n", 2⟩ = ⟨"int x;\n" ++ text, 2⟩ ∧
      indent + closes functionSteps = 2 + opens functionSteps :=
  applyAll_eq_block (by decide) (by decide) _

end C.Listing

end Stencil
