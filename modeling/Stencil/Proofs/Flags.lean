import Stencil.CommandLine

/-!
# Flags among the positional arguments

What the arguments ask for depends on the positional ones, on the last options file and on whether
`--quantize` stands anywhere, but not on how they are interleaved.
-/

namespace Stencil

/-- An argument with what belongs to it. -/
inductive Argument where
  | quantize
  | verbose
  | options (path : String)
  | positional (text : String)
deriving DecidableEq, Repr

namespace Argument

def spelled : Argument → List String
  | quantize => ["--quantize"]
  | verbose => ["--verbose"]
  | options path => ["--options", path]
  | positional text => [text]

/-- A positional argument is neither a flag nor the request for help; an options file may be named like one. -/
def IsProper : Argument → Prop
  | positional text => isFlag text = false ∧ text ≠ "-h"
  | _ => True

instance : DecidablePred IsProper
  | positional _ => inferInstanceAs (Decidable (_ ∧ _))
  | quantize | verbose | options _ => inferInstanceAs (Decidable True)

def path? : Argument → Option String
  | options path => some path
  | _ => none

def positional? : Argument → Option String
  | positional text => some text
  | _ => none

end Argument

open Argument

namespace Arguments

/-- What has been read after one more argument. -/
def take (a : Arguments) : Argument → Arguments
  | .quantize => { a with quantize := true }
  | .verbose => a
  | .options path => { a with optionsFile := some path }
  | .positional text => { a with positional := a.positional ++ [text] }

/-- One or two strings are read for an argument, and none of those behind it. -/
theorem parse_spelled_append {argument : Argument} (h : argument.IsProper) (a : Arguments) (rest : List String) :
    a.parse (argument.spelled ++ rest) = (a.take argument).parse rest := by
  cases argument with
  | quantize | verbose | options path => simp [spelled, take, parse]
  | positional text =>
    obtain ⟨hflag, hhelp⟩ := h
    -- All words that it is compared with are flags themselves, but for `-h`.
    have hother : ∀ flag, isFlag flag = true → text ≠ flag := by
      rintro flag hisFlag rfl
      cases hflag.symm.trans hisFlag
    have hoptions := hother "--options" (by decide)
    rw [spelled, List.singleton_append, parse]
    · simp [take, hother "--quantize" (by decide), hother "--verbose" (by decide), hoptions,
        hother "--help" (by decide), hhelp, hflag]
    · exact fun _ _ h => absurd h hoptions

theorem parse_flatMap_spelled {arguments : List Argument} (h : ∀ x ∈ arguments, x.IsProper) (a : Arguments) :
    a.parse (arguments.flatMap spelled) = (arguments.foldl take a).command := by
  induction arguments generalizing a with
  | nil => simp [parse]
  | cons x arguments ih =>
    rw [List.forall_mem_cons] at h
    rw [List.flatMap_cons, parse_spelled_append h.1, ih h.2, List.foldl_cons]

/-- The quantization stays asked for, the last options file counts, and the positional arguments stay in order. -/
theorem foldl_take (arguments : List Argument) (a : Arguments) :
    arguments.foldl take a = {
      quantize := a.quantize || decide (.quantize ∈ arguments)
      optionsFile := (arguments.filterMap path?).getLast?.or a.optionsFile
      positional := a.positional ++ arguments.filterMap positional? } := by
  induction arguments generalizing a with
  | nil => simp
  | cons x arguments ih =>
    rw [List.foldl_cons, ih]
    cases x <;> simp [take, path?, positional?, List.filterMap_cons, List.getLast?_cons]

end Arguments

/-- Arguments in any order ask for a run on the first positional one. Its output is the second one, its options
file the last that is given, and quantization is asked for or left open. Arguments that agree in what these read
ask for the same run, so that it does not matter where the flags stand. -/
theorem Command.ofArguments_spelled {arguments : List Argument} (hproper : ∀ x ∈ arguments, x.IsProper)
    {input : String} {others : List String} (hpositional : arguments.filterMap positional? = input :: others) :
    ofArguments (arguments.flatMap spelled) = .run {
        input := some input
        output := others.head?
        optionsFile := (arguments.filterMap path?).getLast?
        quantize := if .quantize ∈ arguments then some true else none } ∧
      ∀ arguments' : List Argument, (∀ x ∈ arguments', x.IsProper) →
        arguments'.filterMap positional? = arguments.filterMap positional? →
        arguments'.filterMap path? = arguments.filterMap path? →
        (.quantize ∈ arguments' ↔ .quantize ∈ arguments) →
        ofArguments (arguments'.flatMap spelled) = ofArguments (arguments.flatMap spelled) := by
  have hread : ∀ {arguments : List Argument}, (∀ x ∈ arguments, x.IsProper) →
      ofArguments (arguments.flatMap spelled) = Arguments.command {
        quantize := decide (.quantize ∈ arguments)
        optionsFile := (arguments.filterMap path?).getLast?
        positional := arguments.filterMap positional? } := by
    intro arguments h
    rw [ofArguments, Arguments.parse_flatMap_spelled h, Arguments.foldl_take]
    simp
  refine ⟨?_, fun arguments' hproper' hpositional' hpaths hquantize => ?_⟩
  · rw [hread hproper, Arguments.command, hpositional]
    simp
  · rw [hread hproper', hread hproper, hpositional', hpaths]
    simp only [hquantize]

/-- Flags in front and behind, one of them as the name of an options file. -/
def scattered : List Argument :=
  [.options "o.json", .quantize, .positional "m.json", .verbose, .options "--quantize", .positional "m.c", .quantize]

theorem Command.ofArguments_scattered :
    (∀ x ∈ scattered, x.IsProper) ∧ scattered.filterMap positional? = "m.json" :: ["m.c"] ∧
      ofArguments (scattered.flatMap spelled) = .run {
        input := some "m.json"
        output := some "m.c"
        optionsFile := some "--quantize"
        quantize := some true } ∧
      ofArguments ["m.json", "--quantize", "--options", "o.json", "m.c", "--options", "--quantize"] =
        ofArguments (scattered.flatMap spelled) := by
  have hproper : ∀ x ∈ scattered, x.IsProper := by decide
  have hpositional : scattered.filterMap positional? = "m.json" :: ["m.c"] := rfl
  obtain ⟨hrun, hsame⟩ := ofArguments_spelled hproper hpositional
  refine ⟨hproper, hpositional, hrun, ?_⟩
  exact hsame [.positional "m.json", .quantize, .options "o.json", .positional "m.c", .options "--quantize"]
    (by decide) rfl rfl (by decide)

end Stencil
