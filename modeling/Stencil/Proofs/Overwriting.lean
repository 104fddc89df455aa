import Stencil.Proofs.Documents
import Stencil.Proofs.FileComment
import Stencil.Proofs.Runs

/-!
# Outputs in the place of what is read

The paths that a run writes to by default are those of the model with other extensions. They lead to the
model itself only if it already has the extension of the source. Nothing keeps a run from writing there, nor
from writing over its options file.
-/

namespace Stencil

/-! ## Paths by their parts -/

namespace FileName

theorem parts_ne_nil (cs : List Char) : parts cs ≠ [] := by
  fun_cases parts cs <;> simp

theorem joinParts_parts (cs : List Char) : joinParts (parts cs) = cs := by
  induction cs with
  | nil => rfl
  | cons c cs ih =>
    obtain ⟨next, ps, hparts⟩ := List.exists_cons_of_ne_nil (parts_ne_nil cs)
    rw [hparts] at ih
    rw [parts, hparts]
    split
    next hslash => rw [joinParts_cons_cons, ih, hslash, List.nil_append]
    next =>
      rw [← ih]
      cases ps with
      | nil => simp [joinParts]
      | cons => simp [joinParts_cons_cons]

/-- The path ends in a part that names a file. -/
def NamesFile (path : String) : Prop := ∃ before name, parts path.toList = before ++ [name] ∧ isName name

/-- The file that a path leads to has a name other than a dot in front of the extension. -/
def HasExtension (path extension : String) : Prop :=
  ∃ stem, stem ≠ "" ∧ stem ≠ "." ∧ fileName? path = some (stem ++ "." ++ extension)

variable {path : String} {before : List (List Char)} {name : List Char}

theorem notMem_of_parts (h : parts path.toList = before ++ [name]) : (∀ part ∈ before, '/' ∉ part) ∧ '/' ∉ name := by
  have hmem : ∀ part ∈ before ++ [name], '/' ∉ part := h ▸ fun _ => notMem_of_mem_parts
  rwa [List.forall_mem_append, List.forall_mem_singleton] at hmem

theorem splitLast?_of_parts (h : parts path.toList = before ++ [name]) (hsilent : isSilent name = false) :
    splitLast? path = if isName name then some (before, name) else none := by
  simp [splitLast?, h, hsilent]

theorem path_eq_ofList (h : parts path.toList = before ++ [name]) :
    path = String.ofList (joinParts (before ++ [name])) := by
  rw [← h, joinParts_parts, String.ofList_toList]

theorem parts_ofList (hbefore : ∀ part ∈ before, '/' ∉ part) (hname : '/' ∉ name) :
    parts (String.ofList (joinParts (before ++ [name]))).toList = before ++ [name] := by
  rw [String.toList_ofList]
  refine parts_joinParts (by simp) (List.forall_mem_append.2 ⟨hbefore, ?_⟩)
  simpa using hname

/-! ## Extensions -/

theorem stem_subset (name : List Char) : stem name ⊆ name := by
  have hsuffix : name.reverse.dropWhile (· ≠ '.') <:+ name.reverse := List.dropWhile_suffix _
  unfold stem
  split
  next => exact fun _ => id
  next before hdrop =>
    rw [hdrop] at hsuffix
    split
    · exact fun _ => id
    · intro c hc
      exact List.mem_reverse.1 (hsuffix.subset (List.mem_cons_of_mem _ (List.mem_reverse.1 hc)))

theorem stem_ne_nil (h : name ≠ []) : stem name ≠ [] := by
  unfold stem
  split
  next => exact h
  next before _ =>
    split
    next => exact h
    next hbefore => simpa using hbefore

/-- The extension is what stands behind the last dot. -/
theorem stem_append {front extension : List Char} (hfront : front ≠ []) (hdot : '.' ∉ extension) :
    stem (front ++ '.' :: extension) = front := by
  have hdrop : (front ++ '.' :: extension).reverse.dropWhile (· ≠ '.') = '.' :: front.reverse := by
    have hextension : ∀ c ∈ extension.reverse, (c ≠ '.') = true := by
      simpa using fun c hc (h : c = '.') => hdot (h ▸ hc)
    rw [List.reverse_append, List.reverse_cons, List.append_assoc,
      List.dropWhile_append_of_pos (by simpa using hextension)]
    rfl
  unfold stem
  rw [hdrop]
  simp [hfront]

theorem stem_replaceExtension (hname : name ≠ []) {extension : String} (hdot : '.' ∉ extension.toList) :
    stem (replaceExtension name extension) = stem name :=
  stem_append (stem_ne_nil hname) hdot

theorem isName_replaceExtension (hname : name ≠ []) {extension : String} (hne : extension ≠ "") :
    isName (replaceExtension name extension) := by
  -- It is longer than the parts that name nothing.
  have hlength : 2 < (replaceExtension name extension).length := by
    have hstem := List.length_pos_of_ne_nil (stem_ne_nil hname)
    have hextension : 0 < extension.toList.length := List.length_pos_of_ne_nil (by simpa using hne)
    rw [replaceExtension, List.length_append, List.length_cons]
    omega
  have hother : ∀ part : List Char, part.length ≤ 2 → replaceExtension name extension ≠ part := by
    rintro part hpart rfl
    omega
  simp [isName, isSilent, hother [] (by decide), hother ['.'] (by decide), hother outward (by decide)]

theorem ne_nil_of_isSilent (h : isSilent name = false) : name ≠ [] := by
  rintro rfl
  cases h

theorem isSilent_of_isName (h : isName name) : isSilent name = false := by
  simp only [isName, Bool.and_eq_true, Bool.not_eq_true'] at h
  exact h.1

/-- Where two dots would remain of a name, as where the path ends in them, they take no extension. -/
theorem parts_withExtension (h : parts path.toList = before ++ [name]) (hsilent : isSilent name = false)
    (extension : String) (hslash : '/' ∉ extension.toList) :
    parts (withExtension path extension).toList =
      before ++ [if isName name ∧ stem name ≠ ['.'] then replaceExtension name extension else outward] := by
  obtain ⟨hbefore, hname⟩ := notMem_of_parts h
  unfold withExtension
  rw [splitLast?_of_parts h hsilent]
  cases hisName : isName name with
  | false =>
    have houtward : name = outward := by
      simpa [isName, hsilent] using hisName
    simpa [houtward] using h
  | true =>
    have hends : endsIn path name = true := by
      simp [endsIn, h]
    simp only [if_pos, hends, and_true, true_and, ne_eq, ite_not]
    refine parts_ofList hbefore ?_
    split
    · decide
    · have hstem : '/' ∉ stem name := fun hmem => hname (stem_subset name hmem)
      simp [replaceExtension, hstem, hslash]

/-- Only a name that leaves something other than a dot in front of its extension gives the name of a file. -/
theorem parts_of_namesFile (h : parts path.toList = before ++ [name]) (hsilent : isSilent name = false)
    (extension : String) (hslash : '/' ∉ extension.toList) (hfile : NamesFile (withExtension path extension)) :
    (isName name ∧ stem name ≠ ['.']) ∧
      parts (withExtension path extension).toList = before ++ [replaceExtension name extension] := by
  have hparts := parts_withExtension h hsilent extension hslash
  split at hparts
  next hname => exact ⟨hname, hparts⟩
  next =>
    obtain ⟨before', name', hparts', hname'⟩ := hfile
    obtain ⟨-, hsame⟩ := List.append_inj' (hparts.symm.trans hparts') rfl
    rw [← List.singleton_injective hsame] at hname'
    cases hname'

theorem hasExtension_iff (h : parts path.toList = before ++ [name]) (hsilent : isSilent name = false)
    {extension : String} (hdot : '.' ∉ extension.toList) :
    HasExtension path extension ↔
      (isName name ∧ stem name ≠ ['.']) ∧ replaceExtension name extension = name := by
  unfold HasExtension fileName?
  rw [splitLast?_of_parts h hsilent]
  constructor
  · rintro ⟨front, hne, hother, hfile⟩
    cases hname : isName name with
    | false => simp [hname] at hfile
    | true =>
      have hchars : name = front.toList ++ '.' :: extension.toList := by
        simpa [hname, String.append_assoc] using congrArg (Option.map String.toList) hfile
      have hstem : stem name = front.toList := hchars ▸ stem_append (by simpa using hne) hdot
      refine ⟨⟨rfl, fun hdots => hother ?_⟩, by rw [replaceExtension, hstem, ← hchars]⟩
      rw [← String.ofList_toList (s := front), ← hstem, hdots]
  · rintro ⟨⟨hname, hstem⟩, hsame⟩
    refine ⟨String.ofList (stem name), ?_, fun hdots => hstem ?_, ?_⟩
    · simpa using stem_ne_nil (ne_nil_of_isSilent hsilent)
    · simpa using congrArg String.toList hdots
    · rw [if_pos hname, Option.map_some]
      refine congrArg some (String.toList_inj.1 ?_)
      simpa [replaceExtension] using hsame.symm

/-- A path that already has the extension is left as it is. -/
theorem withExtension_eq_self (h : parts path.toList = before ++ [name]) (hsilent : isSilent name = false)
    {extension : String} (hdot : '.' ∉ extension.toList) (hslash : '/' ∉ extension.toList)
    (hextension : HasExtension path extension) : withExtension path extension = path := by
  obtain ⟨hname, hsame⟩ := (hasExtension_iff h hsilent hdot).1 hextension
  have hparts := parts_withExtension h hsilent extension hslash
  rw [if_pos hname, hsame] at hparts
  rw [path_eq_ofList hparts, ← path_eq_ofList h]

end FileName

/-! ## Where derived paths lead -/

open FileName

/-- Where the parts in front of the last one lead. -/
def Place.ofFolder (before : List (List Char)) : Place := before.foldl step ⟨before.head? = some [], []⟩

variable {path : String} {before : List (List Char)} {name : List Char}

theorem Place.ofPath_of_parts (h : parts path.toList = before ++ [name]) :
    ofPath path = (ofFolder before).step name := by
  obtain ⟨hbefore, hname⟩ := notMem_of_parts h
  -- A path starts at the root if its first part is empty and not the only one.
  have hroot : path.toList.head? = some '/' ↔ before.head? = some [] := by
    rw [← joinParts_parts path.toList, h]
    cases before with
    | nil =>
      have hchar : name.head? ≠ some '/' := fun hhead =>
        hname (List.mem_of_mem_head? hhead)
      simpa [joinParts] using hchar
    | cons first before =>
      obtain ⟨next, ps, hps⟩ : ∃ next ps, before ++ [name] = next :: ps :=
        List.exists_cons_of_ne_nil (by simp)
      rw [List.cons_append, hps, joinParts_cons_cons]
      cases first with
      | nil => simp
      | cons c first =>
        have hc : c ≠ '/' := fun hc => hbefore _ List.mem_cons_self (hc ▸ List.mem_cons_self)
        simpa using hc
  rw [ofPath, h, List.foldl_append, origin]
  simp only [hroot]
  rfl

theorem Place.eq_of_step_eq {p : Place} {name' : List Char} (hname : isName name) (hname' : isName name')
    (h : p.step name = p.step name') : name = name' := by
  rw [step_of_isName hname, step_of_isName hname'] at h
  simpa [child] using h

section

variable {input : String} (hinput : parts input.toList = before ++ [name]) (hsilent : isSilent name = false)

include hinput hsilent

/-- The source is the model only if the model has its extension. -/
theorem hasExtension_of_ofPath_eq (hfile : NamesFile (withExtension input "c"))
    (hplace : Place.ofPath (withExtension input "c") = Place.ofPath input) : HasExtension input "c" := by
  obtain ⟨hname, hsource⟩ := parts_of_namesFile hinput hsilent "c" (by decide) hfile
  have hsourceName : isName (replaceExtension name "c") :=
    isName_replaceExtension (ne_nil_of_isSilent hsilent) (by decide)
  rw [Place.ofPath_of_parts hsource, Place.ofPath_of_parts hinput] at hplace
  exact (hasExtension_iff hinput hsilent (by decide)).2 ⟨hname, Place.eq_of_step_eq hsourceName hname.1 hplace⟩

/-- The outline is never the model, since its own stem is longer than that of the model. -/
theorem ofPath_outline_ne (hfile : NamesFile (withExtension (withExtension input "c") "graph.txt")) :
    Place.ofPath (withExtension (withExtension input "c") "graph.txt") ≠ Place.ofPath input := by
  intro hplace
  have hne : name ≠ [] := ne_nil_of_isSilent hsilent
  have hsource := parts_withExtension hinput hsilent "c" (by decide)
  split at hsource
  next hname =>
    have hsourceName : isName (replaceExtension name "c") := isName_replaceExtension hne (by decide)
    obtain ⟨-, houtline⟩ :=
      parts_of_namesFile hsource (isSilent_of_isName hsourceName) "graph.txt" (by decide) hfile
    have houtlineName : isName (replaceExtension (replaceExtension name "c") "graph.txt") :=
      isName_replaceExtension (by simp [replaceExtension]) (by decide)
    rw [Place.ofPath_of_parts houtline, Place.ofPath_of_parts hinput] at hplace
    have hsame := Place.eq_of_step_eq houtlineName hname.1 hplace
    rw [replaceExtension, stem_replaceExtension hne (by decide)] at hsame
    -- Read from the end, the name has the extension `txt` behind one more dot.
    have hdots : stem name ++ '.' :: "graph.txt".toList = stem name ++ ".graph".toList ++ '.' :: "txt".toList := by
      simp
    rw [hdots] at hsame
    have hlonger : stem name = stem name ++ ".graph".toList := by
      conv_lhs => rw [← hsame]
      exact stem_append (by simp) (by decide)
    have hlength := congrArg List.length hlonger
    simp at hlength
  next =>
    obtain ⟨⟨houtward, -⟩, -⟩ := parts_of_namesFile hsource (by decide) "graph.txt" (by decide) hfile
    cases houtward

end

/-! ## What a run leaves alone -/

namespace Files

variable {f f' : Files} {path : String}

theorem AgreeOutside.refl (f : Files) (paths : List String) : f.AgreeOutside f paths := ⟨rfl, fun _ _ => rfl⟩

/-- What has been read is not a folder, so its path does not end in a part that leads nowhere. -/
theorem exists_parts_of_read {text : String} (h : f.read path = .ok text) :
    ∃ before name, parts path.toList = before ++ [name] ∧ isSilent name = false := by
  obtain ⟨-, hfind, hfolder, -⟩ := read_eq_ok.1 h
  obtain hnil | ⟨before, name, hparts⟩ := List.eq_nil_or_concat (parts path.toList)
  · exact absurd hnil (parts_ne_nil _)
  rw [List.concat_eq_append] at hparts
  refine ⟨before, name, hparts, ?_⟩
  rw [hparts] at hfind
  obtain ⟨p, -, hfollow⟩ := find_append_singleton_eq_ok.1 hfind
  obtain ⟨hfolder', hstep, -⟩ := follow_eq_ok.1 hfollow
  cases hsilent : isSilent name with
  | false => rfl
  | true =>
    rw [← hstep, Place.step, if_pos hsilent, hfolder'] at hfolder
    cases hfolder

theorem namesFile_of_write {text : String} (h : f.write path text = .ok f') : NamesFile path := by
  obtain ⟨_, htarget, -⟩ := Except.bind_eq_ok.1 h
  obtain ⟨-, -, before, last, -, hparts, hname, -⟩ := target_eq_ok htarget
  exact ⟨before, last, hparts, hname⟩

end Files

namespace Settings

variable {s : Settings} {files : Files}

/-- What a run may have written to: the outline in development mode, and the source if the run succeeds. -/
def MayWrite (s : Settings) (result : Except RunError String) (output path : String) : Prop :=
  NamesFile path ∧
    (s.development ∧ path = withExtension output "graph.txt" ∨ path = output ∧ ∃ written, result = .ok written)

theorem agreeOutside_write (s : Settings) (files : Files) (d : Draft) :
    ∃ paths, files.AgreeOutside (s.write files d).1 paths ∧
      ∀ path ∈ paths, s.MayWrite (s.write files d).2 d.output path := by
  unfold Settings.write
  dsimp only
  split
  next => exact ⟨[], .refl files [], by simp⟩
  next outlined houtlined =>
    -- The outline comes first, and stays when the source cannot be written.
    obtain ⟨paths, hagree, hpaths⟩ : ∃ paths, files.AgreeOutside outlined paths ∧
        ∀ path ∈ paths, NamesFile path ∧ s.development ∧ path = d.outlinePath := by
      split at houtlined
      next hdevelopment =>
        refine ⟨[d.outlinePath], (Files.write_eq_ok houtlined).2, ?_⟩
        rw [List.forall_mem_singleton]
        exact ⟨Files.namesFile_of_write houtlined, hdevelopment, rfl⟩
      next =>
        obtain rfl := Except.ok.inj houtlined
        exact ⟨[], .refl files [], by simp⟩
    split
    next => exact ⟨paths, hagree, fun path hpath => (hpaths path hpath).imp_right .inl⟩
    next after hwrite =>
      refine ⟨paths ++ [d.output], hagree.trans (Files.write_eq_ok hwrite).2, ?_⟩
      rw [List.forall_mem_append, List.forall_mem_singleton]
      exact ⟨fun path hpath => (hpaths path hpath).imp_right .inl,
        Files.namesFile_of_write hwrite, .inr ⟨rfl, d.output, rfl⟩⟩

/-- A run that has read its model changes no more than it may have written to, and any other run nothing. -/
theorem agreeOutside_run (s : Settings) (files : Files) :
    ∃ paths, files.AgreeOutside (s.run files).1 paths ∧ ∀ path ∈ paths, ∃ input text,
      s.input = some input ∧ files.read input = .ok text ∧ s.MayWrite (s.run files).2 (s.outputFor input) path := by
  unfold run
  cases hdraft : s.draft files with
  | error e => exact ⟨[], .refl files [], by simp⟩
  | ok d =>
    obtain ⟨input, m, g, hyields, rfl⟩ := draft_eq_ok.1 hdraft
    obtain ⟨text, hread, -⟩ := hyields.model_read
    obtain ⟨paths, hagree, hpaths⟩ := agreeOutside_write s files ⟨g, topComment m.name input, s.outputFor input⟩
    exact ⟨paths, hagree, fun path hpath => ⟨input, text, hyields.input_eq, hread, hpaths path hpath⟩⟩

/-- What can be read at a path before a run is what can be read there afterwards. -/
def Keeps (s : Settings) (files : Files) (path : String) : Prop :=
  ∀ text, files.read path = .ok text ↔ (s.run files).1.read path = .ok text

end Settings

/-! ## Sources are no documents -/

theorem Json.parse?_of_slash {text : String} {cs : List Char} (h : text.toList = '/' :: cs) : parse? text = none := by
  have hnumber : readNumber ('/' :: cs) = none := by
    simp [readNumber, readWhole, readDigits]
  have hvalue : ∀ fuel, readValue fuel ('/' :: cs) = none := by
    intro fuel
    cases fuel with
    | zero => rfl
    | succ fuel => rw [readValue_other (by decide), hnumber, Option.map_none]
  have hblank : skipBlanks ('/' :: cs) = '/' :: cs := rfl
  unfold parse?
  rw [h]
  simp only [hblank, hvalue]

/-- What a run writes as its source cannot be read as a model, nor as options. -/
theorem ofJsonText_source {α : Type} (decode : Json → Decoded α) (g : Graph) (comment : String) :
    ofJsonText decode (g.source (some comment)) = .error .malformed := by
  have hslash : ∃ cs, (g.source (some comment)).toList = '/' :: cs := by
    simp [g.source_some]
  obtain ⟨_, hslash⟩ := hslash
  rw [ofJsonText, Json.parse?_of_slash hslash]

namespace Settings

variable {s : Settings} {files : Files}

/-- The source takes the place of whatever document led there. -/
theorem not_keeps {α : Type} {decode : Json → Decoded α} {a : α} {path output text : String}
    (hok : (s.run files).2 = .ok output) (hplace : Place.ofPath path = Place.ofPath output)
    (hread : files.read path = .ok text) (htext : ofJsonText decode text = .ok a) : ¬s.Keeps files path := by
  intro hkeeps
  obtain ⟨input, m, g, -, -, hsource, -⟩ := (s.run_effect files).2.1 (s.run files).1 output (by rw [← hok])
  obtain ⟨-, -, -, hsource⟩ := Files.read_eq_ok.1 hsource
  obtain ⟨-, -, -, hsame⟩ := Files.read_eq_ok.1 ((hkeeps text).1 hread)
  rw [hplace] at hsame
  obtain rfl := Option.some.inj (hsame.symm.trans hsource)
  rw [ofJsonText_source] at htext
  cases htext

/-- With the default output a run keeps the file of its model, unless it succeeds and the model already has the
extension of the source. It keeps the options file unless it may have written to it, and does not keep it if its
source has been written there. -/
theorem run_keeps (s : Settings) (files : Files) (hdefault : s.output = none) :
    (∀ input, s.input = some input →
      (s.Keeps files input ↔ ¬(HasExtension input "c" ∧ ∃ output, (s.run files).2 = .ok output))) ∧
      ∀ path, s.optionsFile = some path →
        ((∀ input written, s.input = some input → s.MayWrite (s.run files).2 (withExtension input "c") written →
            Place.ofPath path ≠ Place.ofPath written) → s.Keeps files path) ∧
          ∀ output, (s.run files).2 = .ok output → Place.ofPath path = Place.ofPath output →
            ¬s.Keeps files path := by
  obtain ⟨paths, hagree, hpaths⟩ := agreeOutside_run s files
  have houtput : ∀ input, s.outputFor input = withExtension input "c" := by
    intro input
    rw [outputFor, hdefault, Option.getD_none]
  have hyields : ∀ output, (s.run files).2 = .ok output →
      ∃ input m g, s.Yields files input m g ∧ output = withExtension input "c" := by
    intro output hok
    obtain ⟨input, m, g, hyields, rfl, -⟩ := (s.run_effect files).2.1 (s.run files).1 output (by rw [← hok])
    exact ⟨input, m, g, hyields, houtput input⟩
  refine ⟨fun input hinput => ⟨?_, fun hno => ?_⟩, fun path hpath => ⟨fun helsewhere => ?_, fun output hok hplace => ?_⟩⟩
  · rintro hkeeps ⟨hextension, output, hok⟩
    obtain ⟨input', m, g, hyields, rfl⟩ := hyields output hok
    obtain rfl := Option.some.inj (hinput.symm.trans hyields.input_eq)
    obtain ⟨text, hread, hmodel⟩ := hyields.model_read
    obtain ⟨before, name, hparts, hsilent⟩ := Files.exists_parts_of_read hread
    have hself := withExtension_eq_self hparts hsilent (by decide) (by decide) hextension
    exact not_keeps hok (by rw [hself]) hread hmodel hkeeps
  · refine hagree.read_iff fun written hwritten hplace => ?_
    obtain ⟨input', text, hinput', hread, hmay⟩ := hpaths written hwritten
    obtain rfl := Option.some.inj (hinput.symm.trans hinput')
    obtain ⟨before, name, hparts, hsilent⟩ := Files.exists_parts_of_read hread
    rw [houtput] at hmay
    obtain ⟨hfile, ⟨-, rfl⟩ | ⟨rfl, hok⟩⟩ := hmay
    · exact ofPath_outline_ne hparts hsilent hfile hplace.symm
    · exact hno ⟨hasExtension_of_ofPath_eq hparts hsilent hfile hplace.symm, hok⟩
  · refine hagree.read_iff fun written hwritten => ?_
    obtain ⟨input, -, hinput, -, hmay⟩ := hpaths written hwritten
    exact helsewhere input written hinput (houtput input ▸ hmay)
  · -- A run that succeeds has read its options, so that there is a document to overwrite.
    obtain ⟨_, _, _, hyields, -⟩ := hyields output hok
    obtain ⟨_, ⟨given, hgiven, -⟩, -⟩ := hyields.graph_built
    rw [hpath] at hgiven
    obtain ⟨text, hread, hoptions⟩ := hgiven
    exact not_keeps hok hplace hread hoptions

/-- A model with several dots in its name, beside options, in development mode. -/
def careful : Settings where
  input := some "m.c.json"
  optionsFile := some "m.c.txt"
  development := true

def beside : Files := .ofEntries [("m.c.json", "[\"\",[],[],[],[]]"), ("m.c.txt", "\x7b\x7d")]

theorem run_keeps_careful :
    (careful.run beside).2 = .ok "m.c.c" ∧ careful.Keeps beside "m.c.json" ∧ careful.Keeps beside "m.c.txt" := by
  have hwritten : (careful.run beside).2 = .ok "m.c.c" := by decide +kernel
  have hextension : ¬HasExtension "m.c.json" "c" := by
    rw [hasExtension_iff (show parts "m.c.json".toList = [] ++ ["m.c.json".toList] by decide) (by decide) (by decide)]
    decide
  obtain ⟨hmodel, hoptions⟩ := run_keeps careful beside rfl
  refine ⟨hwritten, (hmodel "m.c.json" rfl).2 fun h => hextension h.1, (hoptions "m.c.txt" rfl).1 ?_⟩
  rintro _ written ⟨⟩ ⟨-, ⟨-, rfl⟩ | ⟨rfl, -⟩⟩ <;> decide +kernel

/-- A model with the extension of the source is overwritten, and so are options that stand where the source or
the outline is written. -/
theorem run_overwrites :
    let model := "[\"\",[],[],[],[]]"
    (¬Keeps { input := some "m.c" } (.ofEntries [("m.c", model)]) "m.c") ∧
      (¬Keeps { input := some "m.json", optionsFile := some "m.c" }
        (.ofEntries [("m.json", model), ("m.c", "\x7b\x7d")]) "m.c") ∧
      ¬Keeps { input := some "m.json", optionsFile := some "m.graph.txt", development := true }
        (.ofEntries [("m.json", model), ("m.graph.txt", "\x7b\x7d")]) "m.graph.txt" := by
  intro model
  refine ⟨fun hkeeps => ?_, fun hkeeps => ?_, fun hkeeps => ?_⟩
  · exact absurd ((hkeeps model).1 (by decide +kernel)) (by decide +kernel)
  · exact absurd ((hkeeps "\x7b\x7d").1 (by decide +kernel)) (by decide +kernel)
  · exact absurd ((hkeeps "\x7b\x7d").1 (by decide +kernel)) (by decide +kernel)

end Settings

end Stencil
