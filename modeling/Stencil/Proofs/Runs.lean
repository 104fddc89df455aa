import Stencil.Proofs.Files
import Stencil.Run

/-!
# What a run writes

A run that cannot read what it is given or cannot build the graph leaves every file as it was. One
that succeeds has written the source of the graph, in development mode the outline next to it, and
nothing else.
-/

namespace Stencil

/-! ## Reading -/

section

variable {α : Type} {decode : String → Decoded α} {files : Files} {path : String}

theorem readDocument_eq_ok {a : α} :
    readDocument decode files path = .ok a ↔ ∃ text, files.read path = .ok text ∧ decode text = .ok a := by
  simp [readDocument, Except.bind_eq_ok, Except.mapError_eq_ok]

theorem readDocument_eq_error {e : RunError} :
    readDocument decode files path = .error e ↔
      (∃ fault, files.read path = .error fault ∧ .file fault = e) ∨
        ∃ text, files.read path = .ok text ∧ ∃ fault, decode text = .error fault ∧ .decode fault = e := by
  simp [readDocument, Except.bind_eq_error, Except.mapError_eq_ok, Except.mapError_eq_error]

end

namespace Settings

variable {s : Settings} {files : Files}

/-! ## What a run works out -/

/-- The options are those of the options file, if there is one, but for what the settings override. -/
def Chooses (s : Settings) (files : Files) (options : Options) : Prop :=
  ∃ given : Options,
    (match s.optionsFile with
      | some path => ∃ text, files.read path = .ok text ∧ Options.ofText text = .ok given
      | none => given = {}) ∧
    { given with quantize := s.quantize.getD given.quantize } = options

/-- The graph is that of the model in the input, under the chosen options. -/
structure Yields (s : Settings) (files : Files) (input : String) (m : Model) (g : Graph) : Prop where
  input_eq : s.input = some input
  model_read : ∃ text, files.read input = .ok text ∧ Model.ofText text = .ok m
  graph_built : ∃ options, s.Chooses files options ∧ Graph.build m options = .ok g

/-- What keeps a run from working out a graph. -/
inductive Fails (s : Settings) (files : Files) : RunError → Prop where
  | noInput : s.input = none → Fails s files .noInput
  | optionsUnread {path : String} {e : FileError} :
    s.optionsFile = some path → files.read path = .error e → Fails s files (.file e)
  | optionsRefused {path text : String} {e : DecodeError} :
    s.optionsFile = some path → files.read path = .ok text → Options.ofText text = .error e →
    Fails s files (.decode e)
  | modelUnread {input : String} {e : FileError} :
    s.input = some input → files.read input = .error e → Fails s files (.file e)
  | modelRefused {input text : String} {e : DecodeError} :
    s.input = some input → files.read input = .ok text → Model.ofText text = .error e →
    Fails s files (.decode e)
  | unbuilt {input text : String} {m : Model} {options : Options} {e : BuildError} :
    s.input = some input → files.read input = .ok text → Model.ofText text = .ok m →
    s.Chooses files options → Graph.build m options = .error e → Fails s files (.build e)

theorem options_eq_ok {options : Options} : s.options files = .ok options ↔ s.Chooses files options := by
  unfold Settings.options Chooses
  cases s.optionsFile <;> cases s.quantize <;> simp [Except.map_eq_ok, readDocument_eq_ok]

theorem options_eq_error {e : RunError} (h : s.options files = .error e) : s.Fails files e := by
  unfold Settings.options at h
  cases hpath : s.optionsFile with
  | none =>
    rw [hpath] at h
    cases h
  | some path =>
    rw [hpath] at h
    rcases Except.bind_eq_error.1 h with h | ⟨_, -, h⟩
    · rcases readDocument_eq_error.1 h with ⟨_, hread, rfl⟩ | ⟨_, hread, _, hdecode, rfl⟩
      · exact .optionsUnread hpath hread
      · exact .optionsRefused hpath hread hdecode
    · cases h

theorem draft_eq_ok {d : Draft} :
    s.draft files = .ok d ↔
      ∃ input m g, s.Yields files input m g ∧ ⟨g, topComment m.name input, s.outputFor input⟩ = d := by
  unfold draft
  cases hinput : s.input with
  | none =>
    simp only [reduceCtorEq, false_iff]
    rintro ⟨_, _, _, hyields, -⟩
    rw [hyields.input_eq] at hinput
    cases hinput
  | some input =>
    simp only [Except.bind_eq_ok, options_eq_ok, readDocument_eq_ok, Except.mapError_eq_ok, Except.pure_eq_ok]
    constructor
    · rintro ⟨options, hoptions, m, hmodel, g, hbuild, rfl⟩
      exact ⟨input, m, g, ⟨hinput, hmodel, options, hoptions, hbuild⟩, rfl⟩
    · rintro ⟨_, m, g, ⟨hinput', hmodel, options, hoptions, hbuild⟩, rfl⟩
      obtain rfl := Option.some.inj (hinput.symm.trans hinput')
      exact ⟨options, hoptions, m, hmodel, g, hbuild, rfl⟩

theorem draft_eq_error {e : RunError} (h : s.draft files = .error e) : s.Fails files e := by
  unfold draft at h
  cases hinput : s.input with
  | none =>
    rw [hinput] at h
    obtain rfl := Except.error.inj h
    exact .noInput hinput
  | some input =>
    rw [hinput] at h
    rcases Except.bind_eq_error.1 h with h | ⟨options, hoptions, h⟩
    · exact options_eq_error h
    rcases Except.bind_eq_error.1 h with h | ⟨m, hmodel, h⟩
    · rcases readDocument_eq_error.1 h with ⟨_, hread, rfl⟩ | ⟨_, hread, _, hdecode, rfl⟩
      · exact .modelUnread hinput hread
      · exact .modelRefused hinput hread hdecode
    obtain ⟨text, hread, hdecode⟩ := readDocument_eq_ok.1 hmodel
    rcases Except.bind_eq_error.1 h with h | ⟨_, -, h⟩
    · obtain ⟨_, hbuild, rfl⟩ := Except.mapError_eq_error.1 h
      exact .unbuilt hinput hread hdecode (options_eq_ok.1 hoptions) hbuild
    · cases h

/-- What keeps a run from working out a graph leaves it without one, whatever else it may meet. -/
theorem Fails.not_yields {e : RunError} (h : s.Fails files e) {input : String} {m : Model} {g : Graph} :
    ¬s.Yields files input m g := by
  rintro ⟨hinput, ⟨text, hread, hmodel⟩, options, hchooses, hbuild⟩
  -- Each cause contradicts the step that it stands for, which reads the same files.
  cases h with
  | noInput hnone =>
    rw [hnone] at hinput
    cases hinput
  | optionsUnread hpath herror =>
    obtain ⟨_, hgiven, -⟩ := hchooses
    rw [hpath] at hgiven
    obtain ⟨_, hread, -⟩ := hgiven
    cases herror.symm.trans hread
  | optionsRefused hpath hread herror =>
    obtain ⟨_, hgiven, -⟩ := hchooses
    rw [hpath] at hgiven
    obtain ⟨_, hread', hgiven⟩ := hgiven
    obtain rfl := Except.ok.inj (hread.symm.trans hread')
    cases herror.symm.trans hgiven
  | modelUnread hinput' herror =>
    obtain rfl := Option.some.inj (hinput.symm.trans hinput')
    cases herror.symm.trans hread
  | modelRefused hinput' hread' herror =>
    obtain rfl := Option.some.inj (hinput.symm.trans hinput')
    obtain rfl := Except.ok.inj (hread.symm.trans hread')
    cases herror.symm.trans hmodel
  | unbuilt hinput' hread' hmodel' hchooses' herror =>
    obtain rfl := Option.some.inj (hinput.symm.trans hinput')
    obtain rfl := Except.ok.inj (hread.symm.trans hread')
    obtain rfl := Except.ok.inj (hmodel.symm.trans hmodel')
    obtain rfl := Except.ok.inj ((options_eq_ok.2 hchooses).symm.trans (options_eq_ok.2 hchooses'))
    cases herror.symm.trans hbuild

/-! ## What a run writes -/

/-- The source file, and in development mode the outline. -/
def outputs (s : Settings) (path : String) : List String :=
  if s.development then [FileName.withExtension path "graph.txt", path] else [path]

theorem write_eq_ok {d : Draft} {after : Files} {path : String} (h : s.write files d = (after, .ok path)) :
    path = d.output ∧ after.read path = .ok d.source ∧ files.AgreeOutside after (s.outputs path) := by
  unfold Settings.write at h
  dsimp only at h
  split at h
  next => cases h
  next outlined houtlined =>
    split at h
    next => cases h
    next hsource =>
      obtain ⟨rfl, hpath⟩ := Prod.mk.inj h
      obtain rfl := Except.ok.inj hpath
      obtain ⟨hread, hagree⟩ := Files.write_eq_ok hsource
      refine ⟨rfl, hread, ?_⟩
      unfold outputs
      split at houtlined
      next hdevelopment =>
        rw [if_pos hdevelopment]
        exact (Files.write_eq_ok houtlined).2.trans hagree
      next hdevelopment =>
        obtain rfl := Except.ok.inj houtlined
        rwa [if_neg hdevelopment]

/-- Writing fails because one of the outputs cannot be written to the files as they then are. -/
theorem write_eq_error {d : Draft} {after : Files} {e : RunError} (h : s.write files d = (after, .error e)) :
    ∃ path ∈ s.outputs d.output, ∃ text fault, after.write path text = .error fault ∧ e = .file fault := by
  unfold Settings.write at h
  dsimp only at h
  split at h
  next fault houtlined =>
    obtain ⟨rfl, he⟩ := Prod.mk.inj h
    obtain rfl := Except.error.inj he
    split at houtlined
    next hdevelopment =>
      exact ⟨d.outlinePath, by simp [outputs, hdevelopment, Draft.outlinePath], _, fault, houtlined, rfl⟩
    next => cases houtlined
  next outlined houtlined =>
    split at h
    next fault hsource =>
      obtain ⟨rfl, he⟩ := Prod.mk.inj h
      obtain rfl := Except.error.inj he
      refine ⟨d.output, ?_, _, fault, hsource, rfl⟩
      unfold outputs
      split <;> simp
    next => cases h

/-- A run that does not work out a graph changes no file. One that gives a path has written the
source of the graph to it and has changed no other file, but for the outline in development mode:
what is read elsewhere is read as before. A run that does work out a graph fails only if a file
cannot be written. -/
theorem run_effect (s : Settings) (files : Files) :
    (∀ e, s.Fails files e → ∃ e', s.Fails files e' ∧ s.run files = (files, .error e')) ∧
      (∀ after path, s.run files = (after, .ok path) →
        ∃ input m g, s.Yields files input m g ∧ path = s.outputFor input ∧
          after.read path = .ok (g.source (some (topComment m.name input))) ∧
            files.AgreeOutside after (s.outputs path) ∧
              ∀ other, (∀ written ∈ s.outputs path, Place.ofPath other ≠ Place.ofPath written) →
                ∀ text, files.read other = .ok text ↔ after.read other = .ok text) ∧
      ∀ input m g after e, s.Yields files input m g → s.run files = (after, .error e) →
        ∃ path ∈ s.outputs (s.outputFor input), ∃ text fault,
          after.write path text = .error fault ∧ e = .file fault := by
  refine ⟨fun e hfails => ?_, fun after path hrun => ?_, fun input m g after e hyields hrun => ?_⟩
  · cases hdraft : s.draft files with
    | error e' => exact ⟨e', draft_eq_error hdraft, by simp [run, hdraft]⟩
    | ok d =>
      obtain ⟨_, _, _, hyields, -⟩ := draft_eq_ok.1 hdraft
      exact absurd hyields hfails.not_yields
  · cases hdraft : s.draft files with
    | error e =>
      simp only [run, hdraft] at hrun
      cases hrun
    | ok d =>
      simp only [run, hdraft] at hrun
      obtain ⟨input, m, g, hyields, rfl⟩ := draft_eq_ok.1 hdraft
      obtain ⟨rfl, hread, hagree⟩ := write_eq_ok hrun
      exact ⟨input, m, g, hyields, rfl, hread, hagree, fun _ => hagree.read_iff⟩
  · have hdraft := draft_eq_ok.2 ⟨input, m, g, hyields, rfl⟩
    simp only [run, hdraft] at hrun
    obtain ⟨path, hpath, hfault⟩ := write_eq_error hrun
    exact ⟨path, hpath, hfault⟩

/-- A run with an options file that is overridden, and with an outline. -/
def overriding : Settings where
  input := some "m.json"
  optionsFile := some "o.json"
  quantize := some false
  development := true

/-- A model without nodes, options, and a file that no run is told about. -/
def scratch : Files :=
  .ofEntries [("m.json", "[\"\",[],[],[],[]]"), ("o.json", "\x7b\"quantize\":true\x7d"), ("n.txt", "")]

theorem run_effect_overriding :
    ∃ input m g, overriding.Yields scratch input m g ∧ "m.c" = overriding.outputFor input ∧
      (overriding.run scratch).1.read "m.c" = .ok (g.source (some (topComment m.name input))) ∧
        scratch.AgreeOutside (overriding.run scratch).1 ["m.graph.txt", "m.c"] ∧
          (overriding.run scratch).1.read "n.txt" = .ok "" := by
  have hpath : (overriding.run scratch).2 = .ok "m.c" := by decide +kernel
  have houtputs : overriding.outputs "m.c" = ["m.graph.txt", "m.c"] := by decide +kernel
  have hrun : overriding.run scratch = ((overriding.run scratch).1, .ok "m.c") := by rw [← hpath]
  have helsewhere : ∀ written ∈ ["m.graph.txt", "m.c"], Place.ofPath "n.txt" ≠ Place.ofPath written := by
    decide +kernel
  have hempty : scratch.read "n.txt" = .ok "" := by decide +kernel
  obtain ⟨input, m, g, hyields, houtput, hread, hagree, hsame⟩ :=
    (run_effect overriding scratch).2.1 (overriding.run scratch).1 "m.c" hrun
  rw [houtputs] at hagree hsame
  exact ⟨input, m, g, hyields, houtput, hread, hagree, (hsame "n.txt" helsewhere "").1 hempty⟩

end Settings

end Stencil
