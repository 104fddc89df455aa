import Stencil.Proofs.Comments
import Stencil.Run

/-!
# The comment on top of a file

Every end of a comment in the name of a graph or of its file is broken up by a blank. What is broken up
forms no new end with its neighbours, and so the comment ends where it should, in front of the line that
includes the integer types. An end is a star and a slash side by side in the text as it is written: lines
that a backslash would join are two lines here.
-/

namespace Stencil

/-! ## Ends broken up -/

/-- The text of the comment, with whatever ends of comments are in the names. -/
def commentText (name input : String) : String :=
  (if name.isEmpty then "Generated " else name ++ ": generated ")
    ++ ("from " ++ (FileName.fileName? input).getD input ++ " by onnx-cgen")

theorem topComment_eq (name input : String) :
    topComment name input = String.ofList (keepCommentOpen (commentText name input).toList) := by
  unfold topComment commentText
  cases hname : name.isEmpty <;> simp [String.append_assoc]

theorem head?_keepCommentOpen (cs : List Char) : (keepCommentOpen cs).head? = cs.head? := by
  fun_cases keepCommentOpen cs <;> rfl

theorem behindEnd?_keepCommentOpen (cs : List Char) : C.behindEnd? (keepCommentOpen cs) = none := by
  fun_induction keepCommentOpen cs with
  | case1 rest ih => simpa [C.behindEnd?_cons] using ih
  | case2 c rest hopen ih =>
    -- What follows begins as the text did, where no end begins.
    have hend : ¬(c = '*' ∧ (keepCommentOpen rest).head? = some '/') := by
      rintro ⟨hstar, hslash⟩
      rw [head?_keepCommentOpen, List.head?_eq_some_iff] at hslash
      obtain ⟨tail, hrest⟩ := hslash
      exact hopen tail hstar hrest
    simp only [C.behindEnd?_cons, if_neg hend, ih]
  | case3 => rfl

/-- Nothing but blanks is put in. -/
theorem filter_keepCommentOpen (cs : List Char) :
    (keepCommentOpen cs).filter (· ≠ ' ') = cs.filter (· ≠ ' ') := by
  fun_induction keepCommentOpen cs with
  | case1 rest ih => simpa using ih
  | case2 c rest _ ih => simp only [List.filter_cons, ih]
  | case3 => rfl

namespace C

/-- A text without an end of its own ends where its comment does. -/
theorem behindComment?_commented {text : String} (h : behindEnd? text.toList = none) (code : String) :
    behindComment? ("/* " ++ text ++ " */" ++ code).toList = some code.toList := by
  have hchars : ("/* " ++ text ++ " */" ++ code).toList =
      '/' :: '*' :: ' ' :: (text.toList ++ ' ' :: '*' :: '/' :: code.toList) := by
    simp
  rw [hchars, behindComment?, behindEnd?_blank, behindEnd?_append_of_none h (by simp)]
  rfl

/-! ## Sources that are continued -/

theorem appends_blank : Appends Listing.blank := fun _ _ => by
  simp [Listing.blank, String.append_assoc]

theorem appends_lines (texts : List String) : Appends fun l => texts.foldl (fun l text => l.line text) l :=
  Appends.foldl (f := Listing.line) appends_line texts

theorem appends_printHeaderComment (operator : Operator) (name : String) (c : Convolution) :
    Appends (printHeaderComment operator name c) := by
  unfold printHeaderComment
  exact appends_lines (headerComment operator name c)

end C

theorem Routine.appends_print (r : Routine) : C.Appends r.print := by
  intro text l
  simp only [Routine.print]
  rw [C.appends_printHeaderComment, C.Nest.appends_print C.appends_printStmts]

namespace Graph

open C

theorem appends_printGroup (group : List String) : Appends (printGroup group) := by
  unfold printGroup
  split
  · exact fun _ _ => rfl
  · exact appends_blank.comp (appends_lines group)

theorem appends_printFunction (r : Routine) : Appends (printFunction r) := by
  intro text l
  simp only [printFunction]
  rw [appends_blank, appends_enter, r.appends_print, appends_leave]

variable (g : Graph)

theorem appends_printEntry : Appends g.printEntry := by
  have hcalls : Appends fun out => g.routines.foldl (fun out r => out.line (g.call r)) out :=
    Appends.foldl (f := fun r l => l.line (g.call r)) (fun r => appends_line (g.call r)) g.routines
  simp only [Appends] at hcalls
  intro text l
  simp only [printEntry]
  rw [appends_blank, appends_enter, hcalls, appends_leave]

/-- The line that makes the integer types known. -/
def includeLine : String := "#include <stdint.h>"

/-- What is printed behind the line of the integer types. -/
def printDefinitions (out : Listing) : Listing :=
  let arrays := out
    |> printGroup (g.registry.initializers.map fun (t, data) => g.constantArray t data)
    |> printGroup (g.registry.intermediates.map workArray)
  g.printEntry (g.routines.foldl (fun out r => printFunction r out) arrays)

theorem appends_printDefinitions : Appends g.printDefinitions := by
  have hfunctions : Appends fun out => g.routines.foldl (fun out r => printFunction r out) out :=
    Appends.foldl (f := printFunction) appends_printFunction g.routines
  simp only [Appends] at hfunctions
  intro text l
  simp only [printDefinitions]
  rw [appends_printGroup, appends_printGroup, hfunctions, appends_printEntry]

theorem print_eq (comment : Option String) (out : Listing) :
    g.print comment out = g.printDefinitions ((printTopComment comment out).line includeLine) := rfl

theorem source_none : g.source none = includeLine ++ "\n" ++ (g.printDefinitions .empty).text := by
  rw [source, print_eq, g.appends_printDefinitions.text_eq]
  simp [printTopComment, Listing.line, Listing.empty, Listing.margin]

/-- A comment stands in front of the source that the graph has without one. -/
theorem source_some (comment : String) :
    g.source (some comment) = "/* " ++ comment ++ " */" ++ ("\n" ++ g.source none) := by
  rw [source_none, source, print_eq, g.appends_printDefinitions.text_eq, ← String.toList_inj]
  simp [printTopComment, Listing.line, Listing.empty, Listing.margin]

/-- The comment on top of a file says what it should up to blanks, and no end of a comment is in it. The
first end in the source of a graph with this comment stands right in front of the line that includes the
integer types. -/
theorem source_topComment (name input : String) :
    ¬['*', '/'] <:+: (topComment name input).toList ∧
      (topComment name input).toList.filter (· ≠ ' ') = (commentText name input).toList.filter (· ≠ ' ') ∧
      ∃ definitions, g.source none = "#include <stdint.h>\n" ++ definitions ∧
        behindComment? (g.source (some (topComment name input))).toList =
          some ("\n#include <stdint.h>\n" ++ definitions).toList := by
  have hchars : (topComment name input).toList = keepCommentOpen (commentText name input).toList := by
    rw [topComment_eq, String.toList_ofList]
  have hopen : behindEnd? (topComment name input).toList = none := by
    rw [hchars]
    exact behindEnd?_keepCommentOpen _
  refine ⟨behindEnd?_eq_none.1 hopen, ?_, (g.printDefinitions .empty).text, g.source_none, ?_⟩
  · rw [hchars]
    exact filter_keepCommentOpen _
  · rw [source_some, behindComment?_commented hopen, source_none]
    rfl

end Graph

end Stencil
