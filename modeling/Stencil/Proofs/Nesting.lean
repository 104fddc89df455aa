import Stencil.C.Nest
import Stencil.Proofs.Indentation
import Stencil.Proofs.Printing

/-!
# Nested loops

The loops of a nest are opened and closed apart from each other, with the phases between. Whatever the
phases add, every loop is closed where it was opened, and the phases stand inside of all loops that are
open by then.
-/

namespace Stencil.C

open Listing (lineAt)

/-! ## Phases that only add text -/

/-- What is printed at a listing is a text behind it, at the same indentation. -/
def Adds (f : Listing → Listing) (l : Listing) (text : String) : Prop := f l = ⟨l.text ++ text, l.indent⟩

/-- Whatever stands in front, text is added and the indentation restored. -/
def Extends (f : Listing → Listing) : Prop := ∀ l, ∃ text, Adds f l text

/-- A phase that is given as steps. -/
def printSteps (steps : List Listing.Step) (l : Listing) : Listing := l.applyAll steps

variable {steps : List Listing.Step}

theorem extends_printSteps (hbelow : Listing.NeverBelow 0 steps)
    (hclosed : Listing.closes steps = Listing.opens steps) : Extends (printSteps steps) := by
  intro l
  have hinside : Listing.NeverBelow l.indent steps := fun taken htaken =>
    (hbelow taken htaken).trans (by omega)
  have hindent := Listing.indent_applyAll hinside
  have hsame : (l.applyAll steps).indent = l.indent := by omega
  exact ⟨_, congrArg₂ Listing.mk (Listing.text_applyAll steps l) hsame⟩

theorem Adds.eq_written {l : Listing} {text : String} (h : Adds (printSteps steps) l text) :
    text = written (Listing.added l.indent steps) := by
  have htext := congrArg Listing.text h
  rw [printSteps, Listing.text_applyAll] at htext
  exact (String.append_right_inj _).1 htext.symm

/-! ## One loop around its body -/

namespace Loop

/-- The lines that open a loop at an indentation, with those that guard its body. -/
def opening (l : Loop) (indent : Nat) : List String :=
  lineAt indent (l.header ++ " \x7b") :: (guardLines l.guard).map (lineAt (indent + 1))

/-- A loop at an indentation around its body, the closing brace where the header begins. -/
def around (l : Loop) (indent : Nat) (body : String) : String :=
  written (l.opening indent) ++ body ++ written [lineAt indent "\x7d"]

/-- The lines that open loops, each inside of the one before. -/
def openings : List Loop → Nat → String
  | [], _ => ""
  | l :: loops, indent => written (l.opening indent) ++ openings loops (indent + 1)

/-- Loops around a body, each inside of the one before. -/
def aroundAll : List Loop → Nat → String → String
  | [], _, body => body
  | l :: loops, indent, body => l.around indent (aroundAll loops (indent + 1) body)

theorem enter_eq (l : Loop) (out : Listing) :
    l.enter out = ⟨out.text ++ written (l.opening out.indent), out.indent + 1⟩ := by
  rw [enter, Listing.enter, Listing.line_eq, Listing.foldl_line_eq, opening]
  simp only [String.append_assoc, ← written_append]
  rfl

end Loop

namespace Nest

theorem enterAll_eq (loops : List Loop) (out : Listing) :
    enterAll loops out = ⟨out.text ++ Loop.openings loops out.indent, out.indent + loops.length⟩ := by
  induction loops generalizing out with
  | nil => simp [enterAll, Loop.openings]
  | cons l loops ih =>
    have hcons : enterAll (l :: loops) out = enterAll loops (l.enter out) := rfl
    rw [hcons, ih, Loop.enter_eq, Loop.openings, String.append_assoc, List.length_cons, Nat.add_assoc, Nat.add_comm 1]

/-- It does not matter which of the loops is the one that is left last. -/
theorem leaveAll_cons (l : Loop) (loops : List Loop) (out : Listing) :
    leaveAll (l :: loops) out = (leaveAll loops out).leave := by
  induction loops generalizing l out with
  | nil => rfl
  | cons l' loops ih => exact ih l' out.leave

/-- Loops that are left at the indentation inside of them are closed one by one. -/
theorem leaveAll_eq (loops : List Loop) (indent : Nat) (before body : String) :
    leaveAll loops ⟨before ++ Loop.openings loops indent ++ body, indent + loops.length⟩ =
      ⟨before ++ Loop.aroundAll loops indent body, indent⟩ := by
  induction loops generalizing indent before with
  | nil => simp [leaveAll, Loop.openings, Loop.aroundAll]
  | cons l loops ih =>
    have hopened : before ++ Loop.openings (l :: loops) indent ++ body =
        before ++ written (l.opening indent) ++ Loop.openings loops (indent + 1) ++ body := by
      rw [Loop.openings, ← String.append_assoc]
    have hdepth : indent + (l :: loops).length = indent + 1 + loops.length := by
      rw [List.length_cons]
      omega
    rw [leaveAll_cons, hopened, hdepth, ih, Listing.leave, Listing.leaveWith, Listing.line_eq, Loop.aroundAll, Loop.around]
    simp only [String.append_assoc, Nat.add_sub_cancel]

variable {α : Type} {phase : α → Listing → Listing}

/-- A nest whose phases only add text puts them one behind the other: the first and the last phase inside of the
outer loops, and the second one inside of all loops. -/
theorem exists_adds_print {n : Nest α} (hbefore : Extends (phase n.before)) (heach : Extends (phase n.each))
    (hafter : Extends (phase n.after)) (out : Listing) :
    let begun := out.text ++ Loop.openings n.outer out.indent
    let inside := out.indent + n.outer.length
    ∃ init term final,
      Adds (phase n.before) ⟨begun, inside⟩ init ∧
      Adds (phase n.each) ⟨begun ++ init ++ Loop.openings n.inner inside, inside + n.inner.length⟩ term ∧
      Adds (phase n.after) ⟨begun ++ init ++ Loop.aroundAll n.inner inside term, inside⟩ final ∧
      Adds (n.print phase) out
        (Loop.aroundAll n.outer out.indent (init ++ Loop.aroundAll n.inner inside term ++ final)) := by
  intro begun inside
  obtain ⟨init, hinit⟩ := hbefore ⟨begun, inside⟩
  obtain ⟨term, hterm⟩ := heach ⟨begun ++ init ++ Loop.openings n.inner inside, inside + n.inner.length⟩
  obtain ⟨final, hfinal⟩ := hafter ⟨begun ++ init ++ Loop.aroundAll n.inner inside term, inside⟩
  refine ⟨init, term, final, hinit, hterm, hfinal, ?_⟩
  have hstarted : phase n.before (enterAll n.outer out) = ⟨begun ++ init, inside⟩ := by
    rw [enterAll_eq]
    exact hinit
  have hsummed : leaveAll n.inner (phase n.each (enterAll n.inner ⟨begun ++ init, inside⟩)) =
      ⟨begun ++ init ++ Loop.aroundAll n.inner inside term, inside⟩ := by
    rw [enterAll_eq, hterm]
    exact leaveAll_eq n.inner inside (begun ++ init) term
  have hclosed := leaveAll_eq n.outer out.indent out.text (init ++ Loop.aroundAll n.inner inside term ++ final)
  simp only [← String.append_assoc] at hclosed
  unfold Adds print
  rw [hstarted, hsummed, hfinal]
  exact hclosed

end Nest

/-! ## Braces -/

def Braceless (text : String) : Prop := '\x7b' ∉ text.toList ∧ '\x7d' ∉ text.toList

instance (text : String) : Decidable (Braceless text) := inferInstanceAs (Decidable (_ ∧ _))

theorem braceless_append {text more : String} : Braceless (text ++ more) ↔ Braceless text ∧ Braceless more := by
  simp only [Braceless, String.toList_append, List.mem_append, not_or]
  exact and_and_and_comm

theorem braceless_number (n : Nat) : Braceless (toString n) := by
  constructor <;> intro h <;> cases isDigit_of_mem_toString h

theorem braceless_integer (value : Int) : Braceless (toString value) := by
  cases value with
  | ofNat n => exact braceless_number n
  | negSucc n =>
    change Braceless ("-" ++ toString (n + 1))
    exact braceless_append.2 ⟨by decide, braceless_number (n + 1)⟩

theorem braceless_margin (l : Listing) : Braceless l.margin := by
  simp [Braceless, Listing.margin, List.mem_replicate]

theorem braceless_written {texts : List String} (h : ∀ text ∈ texts, Braceless text) : Braceless (written texts) := by
  induction texts with
  | nil => decide
  | cons text texts ih =>
    rw [List.forall_mem_cons] at h
    rw [written_cons]
    exact braceless_append.2 ⟨braceless_append.2 ⟨h.1, by decide⟩, ih h.2⟩

namespace Loop

/-- The names that a loop declares or reads. -/
def mentions (l : Loop) : List String :=
  l.counter :: (l.follower.elim [] fun f => [f.name]) ++ l.guard.elim [] fun g => [g.name, g.left, g.right]

variable {l : Loop}

theorem braceless_header (h : ∀ name ∈ l.mentions, Braceless name) : Braceless l.header := by
  have htype : Braceless l.type.name := by
    cases l.type <;> decide
  have hcounter : Braceless l.counter := h _ (by simp [mentions])
  rw [header_eq]
  cases hfollower : l.follower with
  | none =>
    simp only [Option.elim_none, braceless_append, braceless_number, htype, hcounter]
    decide
  | some f =>
    have hname : Braceless f.name := h _ (by simp [mentions, hfollower])
    simp only [Option.elim_some, Follower.startText, Follower.stepText, braceless_append, braceless_number,
      braceless_integer, htype, hcounter, hname]
    decide

theorem braceless_guardLines (h : ∀ name ∈ l.mentions, Braceless name) :
    ∀ text ∈ guardLines l.guard, Braceless text := by
  cases hguard : l.guard with
  | none => exact List.forall_mem_nil _
  | some g =>
    have hnames : Braceless g.name ∧ Braceless g.left ∧ Braceless g.right :=
      ⟨h _ (by simp [mentions, hguard]), h _ (by simp [mentions, hguard]), h _ (by simp [mentions, hguard])⟩
    simp only [guardLines, List.forall_mem_cons, braceless_append, braceless_number, hnames]
    decide

end Loop

/-- How often a character stands in a text. -/
def occurrences (c : Char) (text : String) : Nat := text.toList.count c

theorem occurrences_append (c : Char) (text more : String) :
    occurrences c (text ++ more) = occurrences c text + occurrences c more := by
  simp [occurrences]

variable {c : Char}

theorem occurrences_of_braceless (hc : c = '\x7b' ∨ c = '\x7d') {text : String} (h : Braceless text) :
    occurrences c text = 0 := by
  rw [occurrences, List.count_eq_zero]
  obtain rfl | rfl := hc
  · exact h.1
  · exact h.2

theorem occurrences_lineAt (hc : c = '\x7b' ∨ c = '\x7d') (indent : Nat) (text : String) :
    occurrences c (lineAt indent text) = occurrences c text := by
  rw [lineAt, occurrences_append, occurrences_of_braceless hc (braceless_margin _), Nat.zero_add]

theorem occurrences_written_cons (hc : c = '\x7b' ∨ c = '\x7d') (text : String) (texts : List String) :
    occurrences c (written (text :: texts)) = occurrences c text + occurrences c (written texts) := by
  have hfeed : occurrences c "\n" = 0 := occurrences_of_braceless hc (by decide)
  rw [written_cons, occurrences_append, occurrences_append, hfeed, Nat.add_zero]

/-- A loop is printed with one brace of each kind. -/
theorem Loop.occurrences_around (hc : c = '\x7b' ∨ c = '\x7d') {l : Loop} (h : ∀ name ∈ l.mentions, Braceless name)
    (indent : Nat) (body : String) : occurrences c (l.around indent body) = occurrences c body + 1 := by
  have hheader : occurrences c l.header = 0 := occurrences_of_braceless hc (braceless_header h)
  have hguards : occurrences c (written ((guardLines l.guard).map (lineAt (indent + 1)))) = 0 := by
    refine occurrences_of_braceless hc (braceless_written fun line hline => ?_)
    obtain ⟨text, htext, rfl⟩ := List.mem_map.1 hline
    exact braceless_append.2 ⟨braceless_margin _, braceless_guardLines h text htext⟩
  have hbraces : occurrences c " \x7b" + occurrences c "\x7d" = 1 := by
    obtain rfl | rfl := hc <;> decide
  have hnil : occurrences c (written []) = 0 := rfl
  simp only [around, opening, occurrences_append, occurrences_written_cons hc, occurrences_lineAt hc, hheader,
    hguards, hnil]
  omega

theorem Loop.occurrences_aroundAll (hc : c = '\x7b' ∨ c = '\x7d') {loops : List Loop}
    (h : ∀ name ∈ loops.flatMap mentions, Braceless name) (indent : Nat) (body : String) :
    occurrences c (aroundAll loops indent body) = occurrences c body + loops.length := by
  induction loops generalizing indent with
  | nil => rfl
  | cons l loops ih =>
    rw [List.flatMap_cons, List.forall_mem_append] at h
    rw [aroundAll, occurrences_around hc h.1, ih h.2, List.length_cons, Nat.add_assoc]

namespace Nest

variable {α : Type} {phase : α → Listing → Listing} {before each after : α}

/-- The nest of a convolution ends at the indentation where it begins. The first and the last phase are printed
once each inside of four loops, and the second one once inside of seven; outside of the phases stand the seven
headers with their braces, and each closing brace at the margin of its header. -/
theorem print_ofConvolution (hbefore : Extends (phase before)) (heach : Extends (phase each))
    (hafter : Extends (phase after)) (c : Convolution) (out : Listing) :
    let n := ofConvolution c before each after
    let begun := out.text ++ Loop.openings n.outer out.indent
    ∃ init term final,
      Adds (phase before) ⟨begun, out.indent + 4⟩ init ∧
      Adds (phase each) ⟨begun ++ init ++ Loop.openings n.inner (out.indent + 4), out.indent + 7⟩ term ∧
      Adds (phase after) ⟨begun ++ init ++ Loop.aroundAll n.inner (out.indent + 4) term, out.indent + 4⟩ final ∧
      Adds (n.print phase) out
        (Loop.aroundAll n.outer out.indent (init ++ Loop.aroundAll n.inner (out.indent + 4) term ++ final)) ∧
      n.outer.map (·.counter) = ["b", "m", "o0", "o1"] ∧ n.inner.map (·.counter) = ["c", "k0", "k1"] ∧
      (∀ l ∈ n.outer ++ n.inner, ∃ rest, l.header = "for (" ++ l.type.name ++ " " ++ l.counter ++ " = 0" ++ rest) ∧
      ∀ brace, brace = '\x7b' ∨ brace = '\x7d' →
        occurrences brace
            (Loop.aroundAll n.outer out.indent (init ++ Loop.aroundAll n.inner (out.indent + 4) term ++ final)) =
          occurrences brace init + occurrences brace term + occurrences brace final + 7 := by
  intro n begun
  obtain ⟨init, term, final, hinit, hterm, hfinal, hprint⟩ := exists_adds_print (n := n) hbefore heach hafter out
  have houter : ∀ name ∈ n.outer.flatMap Loop.mentions, Braceless name := by
    have hnames : n.outer.flatMap Loop.mentions = ["b", "m", "o0", "i0", "o1", "i1"] := rfl
    rw [hnames]
    decide
  have hinner : ∀ name ∈ n.inner.flatMap Loop.mentions, Braceless name := by
    have hnames : n.inner.flatMap Loop.mentions = ["c", "k0", "ii0", "i0", "k0", "k1", "ii1", "i1", "k1"] := rfl
    rw [hnames]
    decide
  refine ⟨init, term, final, hinit, hterm, hfinal, hprint, rfl, rfl, fun l _ => ?_, fun brace hbrace => ?_⟩
  · simp only [Loop.header_eq, String.append_assoc]
    exact ⟨_, rfl⟩
  · have hlengths : n.outer.length = 4 ∧ n.inner.length = 3 := ⟨rfl, rfl⟩
    rw [Loop.occurrences_aroundAll hbrace houter, occurrences_append, occurrences_append,
      Loop.occurrences_aroundAll hbrace hinner, hlengths.1, hlengths.2]
    omega

/-- A single element under a kernel of one element. -/
def point : Convolution := ⟨1, 1, 1, ⟨⟨⟨1, 1, 1, 1⟩, 0, 0⟩, ⟨⟨1, 1, 1, 1⟩, 0, 0⟩⟩, 1, .notSet⟩

/-- The second phase is a block with braces of its own, and the last one prints nothing. -/
theorem print_ofConvolution_point :
    ∃ text,
      Adds ((ofConvolution point [.line "int32_t acc = 0;"] [.enter "if (x)", .line "acc++;", .leave] []).print
        printSteps) ⟨"", 2⟩ text ∧
      ∀ brace, brace = '\x7b' ∨ brace = '\x7d' → occurrences brace text = 8 := by
  have hbefore : Extends (printSteps [.line "int32_t acc = 0;"]) := extends_printSteps (by decide) (by decide)
  have heach : Extends (printSteps [.enter "if (x)", .line "acc++;", .leave]) :=
    extends_printSteps (by decide) (by decide)
  have hafter : Extends (printSteps []) := extends_printSteps (by decide) (by decide)
  obtain ⟨init, term, final, hinit, hterm, hfinal, hprint, -, -, -, hbraces⟩ :=
    print_ofConvolution hbefore heach hafter point ⟨"", 2⟩
  obtain rfl : init = written (Listing.added 6 [.line "int32_t acc = 0;"]) := hinit.eq_written
  obtain rfl : term = written (Listing.added 9 [.enter "if (x)", .line "acc++;", .leave]) := hterm.eq_written
  obtain rfl : final = "" := hfinal.eq_written
  refine ⟨_, hprint, fun brace hbrace => ?_⟩
  rw [hbraces brace hbrace]
  simp only [Listing.added, Listing.Step.added, List.cons_append, List.nil_append, occurrences_written_cons hbrace,
    occurrences_lineAt hbrace]
  obtain rfl | rfl := hbrace <;> decide

end Nest

end Stencil.C
