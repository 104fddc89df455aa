import Mathlib.Data.List.Infix
import Stencil.Proofs.Resolution
import Stencil.Proofs.Tokens

/-!
# Comments in front of loop nests

A comment ends at the first star that a slash follows, wherever its author meant it to end. The name
of a node stands in the comment of its function as it is, so the comment ends where it should only if
the name does not end it.
-/

namespace Stencil

namespace C

/-! ## Where a comment ends -/

/-- What follows the first end of a comment. -/
def behindEnd? : List Char → Option (List Char)
  | '*' :: '/' :: rest => some rest
  | _ :: rest => behindEnd? rest
  | [] => none

/-- What follows the comment that a text starts with. -/
def behindComment? : List Char → Option (List Char)
  | '/' :: '*' :: rest => behindEnd? rest
  | _ => none

variable {a b rest : List Char}

theorem behindEnd?_cons (c : Char) (cs : List Char) :
    behindEnd? (c :: cs) = if c = '*' ∧ cs.head? = some '/' then some cs.tail else behindEnd? cs := by
  cases cs with
  | nil => simp [behindEnd?]
  | cons d cs =>
    by_cases hend : c = '*' ∧ d = '/'
    · obtain ⟨rfl, rfl⟩ := hend
      rfl
    · rw [if_neg (by simpa using hend)]
      rw [behindEnd?]
      intro rest hc hcs
      exact hend ⟨hc, (List.cons.inj hcs).1⟩

theorem behindEnd?_blank (cs : List Char) : behindEnd? (' ' :: cs) = behindEnd? cs := rfl

theorem behindEnd?_eq_none {cs : List Char} : behindEnd? cs = none ↔ ¬['*', '/'] <:+: cs := by
  induction cs with
  | nil => simp [behindEnd?]
  | cons c cs ih =>
    have hhead : ['*', '/'] <+: c :: cs ↔ c = '*' ∧ cs.head? = some '/' := by
      cases cs with
      | nil => simp
      | cons d cs => simp [List.cons_prefix_cons, eq_comm]
    rw [behindEnd?_cons, List.infix_cons_iff, hhead, not_or, ← ih]
    split <;> simp [*]

theorem behindEnd?_append_of_some (h : behindEnd? a = some rest) (b : List Char) :
    behindEnd? (a ++ b) = some (rest ++ b) := by
  induction a with
  | nil => cases h
  | cons c a ih =>
    rw [behindEnd?_cons] at h
    rw [List.cons_append, behindEnd?_cons]
    by_cases hend : c = '*' ∧ a.head? = some '/'
    · rw [if_pos hend] at h
      obtain rfl := Option.some.inj h
      cases a with
      | nil => cases hend.2
      | cons d a => exact if_pos hend
    · rw [if_neg hend] at h
      rw [if_neg, ih h]
      rintro ⟨hc, hhead⟩
      cases a with
      | nil => cases h
      | cons d a => exact hend ⟨hc, hhead⟩

/-- Text without an end is passed over, unless what follows completes one. -/
theorem behindEnd?_append_of_none (h : behindEnd? a = none) (hb : b.head? ≠ some '/') :
    behindEnd? (a ++ b) = behindEnd? b := by
  induction a with
  | nil => rfl
  | cons c a ih =>
    rw [behindEnd?_cons] at h
    split at h
    next => cases h
    next hend =>
      rw [List.cons_append, behindEnd?_cons, if_neg, ih h]
      -- An end here would lie within `a`, or be completed by `b`.
      rintro ⟨rfl, hhead⟩
      cases a with
      | nil => exact hb hhead
      | cons d a => exact hend ⟨rfl, hhead⟩

theorem behindEnd?_of_notMem (h : '/' ∉ a) : behindEnd? a = none := by
  rw [behindEnd?_eq_none]
  exact fun hends => h (hends.subset (by simp))

/-! ## Listings that are continued -/

/-- What is printed does not depend on the text in front of it. -/
def Appends (f : Listing → Listing) : Prop :=
  ∀ (text : String) (l : Listing), f { l with text := text ++ l.text } = { f l with text := text ++ (f l).text }

theorem Appends.text_eq {f : Listing → Listing} (h : Appends f) (l : Listing) :
    (f l).text = l.text ++ (f ⟨"", l.indent⟩).text := by
  have hfront := h l.text ⟨"", l.indent⟩
  rw [String.append_empty] at hfront
  exact congrArg Listing.text hfront

theorem appends_line (text : String) : Appends (Listing.line text) := by
  intro front l
  simp [Listing.line, Listing.margin, String.append_assoc]

theorem appends_enter (text : String) : Appends (Listing.enter text) := by
  intro front l
  simp only [Listing.enter]
  rw [appends_line]

theorem appends_leave : Appends Listing.leave := fun front l =>
  appends_line "\x7d" front { l with indent := l.indent - 1 }

theorem Appends.comp {f g : Listing → Listing} (hf : Appends f) (hg : Appends g) : Appends (g ∘ f) := by
  intro text l
  simp only [Function.comp_apply]
  rw [hf, hg]

theorem Appends.foldl {α : Type} {f : α → Listing → Listing} (hf : ∀ a, Appends (f a)) (as : List α) :
    Appends fun l => as.foldl (fun l a => f a l) l := by
  induction as with
  | nil => exact fun _ _ => rfl
  | cons a as ih => exact (hf a).comp ih

theorem appends_loop (l : Loop) : Appends l.enter :=
  (appends_enter l.header).comp (Appends.foldl appends_line (Loop.guardLines l.guard))

theorem Nest.appends_print {α : Type} {phase : α → Listing → Listing} (hphase : ∀ a, Appends (phase a))
    (n : Nest α) : Appends (n.print phase) := by
  have henter : ∀ loops, Appends (enterAll loops) := Appends.foldl appends_loop
  have hleave : ∀ loops, Appends (leaveAll loops) := Appends.foldl fun _ => appends_leave
  exact (henter n.outer).comp <| (hphase n.before).comp <| (henter n.inner).comp <| (hphase n.each).comp <|
    (hleave n.inner).comp <| (hphase n.after).comp (hleave n.outer)

theorem appends_printStmts (stmts : List Stmt) : Appends (printStmts stmts) :=
  Appends.foldl (f := fun (s : Stmt) l => l.line s.render) (fun s => appends_line s.render) stmts

/-- Lines are set apart by a line feed and the margin. -/
theorem text_foldl_line {texts : List String} (h : texts ≠ []) (l : Listing) :
    (texts.foldl (fun l text => l.line text) l).text =
      l.text ++ l.margin ++ String.intercalate ("\n" ++ l.margin) texts ++ "\n" := by
  induction texts generalizing l with
  | nil => exact absurd rfl h
  | cons first texts ih =>
    cases texts with
    | nil => simp [Listing.line]
    | cons next texts =>
      have hmargin : (l.line first).margin = l.margin := rfl
      rw [List.foldl_cons, ih (List.cons_ne_nil _ _), hmargin]
      simp [Listing.line, String.intercalate_cons_cons, String.append_assoc]

theorem indent_foldl_line (texts : List String) (l : Listing) :
    (texts.foldl (fun l text => l.line text) l).indent = l.indent := by
  induction texts generalizing l with
  | nil => rfl
  | cons first texts ih => exact ih (l.line first)

/-! ## Texts without slashes -/

theorem notMem_toString (n : Nat) : '/' ∉ (toString n).toList := by
  intro h
  cases isDigit_of_mem_toString h

theorem notMem_intercalate {c : Char} {separator : String} {texts : List String}
    (hseparator : c ∉ separator.toList) (htexts : ∀ text ∈ texts, c ∉ text.toList) :
    c ∉ (separator.intercalate texts).toList := by
  induction texts with
  | nil => simp
  | cons text texts ih =>
    rw [List.forall_mem_cons] at htexts
    cases texts with
    | nil => simpa using htexts.1
    | cons next texts =>
      simp only [String.intercalate_cons_cons, String.toList_append, List.mem_append, not_or]
      exact ⟨⟨htexts.1, hseparator⟩, ih htexts.2⟩

theorem notMem_showSizes (sizes : List Nat) : '/' ∉ (showSizes sizes).toList := by
  have hinner : '/' ∉ (commaSeparated (sizes.map toString)).toList := by
    refine notMem_intercalate (by decide) fun text htext => ?_
    obtain ⟨n, -, rfl⟩ := List.mem_map.1 htext
    exact notMem_toString n
  simp [showSizes, bracketed, hinner]

theorem notMem_margin (l : Listing) : '/' ∉ l.margin.toList := by
  simp [Listing.margin, List.mem_replicate]

end C

/-! ## Header comments -/

namespace Routine

variable (r : Routine)

/-- The comment in front of the loops, with the margin between its lines. -/
def comment (margin : String) : String :=
  String.intercalate ("\n" ++ margin) (C.headerComment r.operator r.name r.convolution)

/-- The loops and their statements, as they are printed at an indentation. -/
def loops (indent : Nat) : String := (r.nest.print C.printStmts ⟨"", indent⟩).text

theorem text_print (out : C.Listing) :
    (r.print out).text = out.text ++ out.margin ++ r.comment out.margin ++ "\n" ++ r.loops out.indent := by
  have htext : (C.printHeaderComment r.operator r.name r.convolution out).text =
      out.text ++ out.margin ++ r.comment out.margin ++ "\n" :=
    C.text_foldl_line (List.cons_ne_nil _ _) out
  have hindent : (C.printHeaderComment r.operator r.name r.convolution out).indent = out.indent :=
    C.indent_foldl_line _ out
  rw [← htext, loops, ← hindent]
  exact (C.Nest.appends_print C.appends_printStmts r.nest).text_eq _

/-- What stands in the comment in front of the name. -/
def opening (margin : String) : String :=
  " " ++ r.operator.name ++ "\n" ++ margin ++ " * name:"

/-- What stands in the comment behind the name. -/
def closing (margin : String) : String :=
  String.intercalate ("\n" ++ margin)
    ["", " * auto_pad: " ++ r.convolution.autoPad.name,
     " * kernel_shape: " ++ showSizes r.convolution.kernelShape.toList,
     " * strides: " ++ showSizes r.convolution.strides.toList,
     " * dilations: " ++ showSizes r.convolution.dilations.toList,
     " * pads: " ++ showSizes r.convolution.pads.toList,
     " * group: " ++ toString r.convolution.group,
     " "]

theorem comment_eq (margin : String) :
    r.comment margin = "/*" ++ r.opening margin ++ " " ++ r.name ++ r.closing margin ++ "*/" := by
  have hmark : ∀ text, "/* " ++ text = "/*" ++ (" " ++ text) := by
    intro text
    rw [← String.append_assoc]
    rfl
  simp [comment, C.headerComment, opening, closing, String.intercalate_cons_cons, String.append_assoc, hmark]

theorem closing_eq_cons (margin : String) : ∃ more, (r.closing margin).toList = '\n' :: more :=
  ⟨_, by rw [closing, String.intercalate_cons_cons]; simp; rfl⟩

theorem notMem_opening {margin : String} (h : '/' ∉ margin.toList) : '/' ∉ (r.opening margin).toList := by
  cases hoperator : r.operator <;> simp [opening, hoperator, Operator.name, h]

theorem notMem_closing {margin : String} (h : '/' ∉ margin.toList) : '/' ∉ (r.closing margin).toList := by
  refine C.notMem_intercalate (by simp [h]) ?_
  have hpolicy : '/' ∉ r.convolution.autoPad.name.toList := by
    cases r.convolution.autoPad <;> decide
  have hgroup : '/' ∉ (toString r.convolution.group).toList := C.notMem_toString _
  simp only [List.forall_mem_cons, String.toList_append, List.mem_append, not_or, hpolicy, hgroup,
    C.notMem_showSizes]
  simp

/-- The comment ends where the name ends it, or else where it should. -/
theorem behindComment?_comment {margin : String} (h : '/' ∉ margin.toList) (code : List Char) :
    C.behindComment? ((r.comment margin).toList ++ code) =
      some (((C.behindEnd? r.name.toList).map fun rest =>
        rest ++ ((r.closing margin).toList ++ '*' :: '/' :: code)).getD code) := by
  have hopening := C.behindEnd?_of_notMem (r.notMem_opening h)
  have hclosing := C.behindEnd?_of_notMem (r.notMem_closing h)
  have hchars : (r.comment margin).toList ++ code =
      '/' :: '*' :: ((r.opening margin).toList ++ ' ' :: (r.name.toList ++ ((r.closing margin).toList ++
        '*' :: '/' :: code))) := by
    simp [comment_eq]
  rw [hchars, C.behindComment?, C.behindEnd?_append_of_none hopening (by simp), C.behindEnd?_blank]
  cases hname : C.behindEnd? r.name.toList with
  | some rest => rw [C.behindEnd?_append_of_some hname]; rfl
  | none =>
    obtain ⟨more, hmore⟩ := r.closing_eq_cons margin
    rw [C.behindEnd?_append_of_none hname (by simp [hmore]), C.behindEnd?_append_of_none hclosing (by simp)]
    rfl

end Routine

/-- The comment of a resolved node ends in front of the loops exactly if the name of the node does not
end a comment. Otherwise the rest of the name stands behind the comment. -/
theorem Node.comment_ends_iff {n : Node} {options : Options} {r : Routine} (h : n.resolve options = .ok r)
    (out : C.Listing) :
    (r.print out).text = out.text ++ out.margin ++ r.comment out.margin ++ "\n" ++ r.loops out.indent ∧
      (C.behindComment? (r.comment out.margin ++ "\n" ++ r.loops out.indent).toList =
          some ("\n" ++ r.loops out.indent).toList ↔ ¬['*', '/'] <:+: n.name.toList) ∧
      ∀ rest, C.behindEnd? n.name.toList = some rest → ∃ more,
        C.behindComment? (r.comment out.margin ++ "\n" ++ r.loops out.indent).toList = some (rest ++ more) := by
  have hname := (resolve_eq_ok h).name_eq
  have hbehind := r.behindComment?_comment (C.notMem_margin out) ("\n" ++ r.loops out.indent).toList
  rw [← String.toList_append, ← String.append_assoc, hname] at hbehind
  refine ⟨r.text_print out, ?_, fun rest hrest => ?_⟩
  · rw [hbehind, ← C.behindEnd?_eq_none]
    cases hend : C.behindEnd? n.name.toList with
    | none => simp
    | some rest =>
      simp only [Option.map_some, Option.getD_some, reduceCtorEq, iff_false]
      -- The lines of the comment behind the name stand there as well.
      intro hsame
      have hlength := congrArg List.length (Option.some.inj hsame)
      simp at hlength
      omega
  · rw [hbehind, hrest]
    exact ⟨_, rfl⟩

/-- A convolution of single values, of any name. -/
def namedNode (name : String) : Node where
  operator := .convInteger
  name := name
  inputs := [some ⟨"x", .uint8, [1, 1, 1, 1]⟩, some ⟨"w", .int8, [1, 1, 1, 1]⟩]
  outputs := ["y"]
  attributes := []

theorem comment_ends_namedNode :
    ∃ r, (namedNode "* /").resolve {} = .ok r ∧
      C.behindComment? (r.comment "" ++ "\n" ++ r.loops 0).toList = some ("\n" ++ r.loops 0).toList := by
  obtain ⟨r, hr⟩ : ∃ r, (namedNode "* /").resolve {} = .ok r := ⟨_, rfl⟩
  obtain ⟨-, hends, -⟩ := Node.comment_ends_iff hr .empty
  exact ⟨r, hr, hends.2 (by decide)⟩

/-- The comment ends inside of the name, and what stands behind it is the rest of the name. -/
theorem namedNode_leaks :
    ∃ r rest, (namedNode "a */ b").resolve {} = .ok r ∧
      C.behindComment? (r.print .empty).text.toList = some (" b\n".toList ++ rest) := by
  obtain ⟨r, hr⟩ : ∃ r, (namedNode "a */ b").resolve {} = .ok r := ⟨_, rfl⟩
  have hname : r.name = "a */ b" := (Node.resolve_eq_ok hr).name_eq
  have hend : C.behindEnd? r.name.toList = some " b".toList := by
    rw [hname]
    decide
  have htext : (r.print .empty).text.toList = (r.comment "").toList ++ ("\n" ++ r.loops 0).toList := by
    have hmargin : C.Listing.empty.margin = "" := rfl
    have hempty : C.Listing.empty.text = "" := rfl
    rw [r.text_print, hmargin, hempty]
    simp [C.Listing.empty]
  obtain ⟨more, hmore⟩ := r.closing_eq_cons ""
  refine ⟨r, more ++ '*' :: '/' :: ("\n" ++ r.loops 0).toList, hr, ?_⟩
  rw [htext, r.behindComment?_comment (by decide), hend, hmore]
  rfl

end Stencil
