import Mathlib.Data.List.Induction
import Stencil.Files
import Stencil.Proofs.Keys
import Stencil.Proofs.Outcome

/-!
# Files, read and written

What a path leads to is the place that its parts name, if there is anything. Writing a file leaves
every folder and every file at another place as it is.
-/

namespace Stencil

open FileName

/-! ## Parts of paths -/

theorem FileName.parts_cons {c : Char} {cs part : List Char} {rest : List (List Char)} (hc : c ≠ '/')
    (h : parts cs = part :: rest) : parts (c :: cs) = (c :: part) :: rest := by
  change (if c = '/' then [] :: parts cs else _) = _
  rw [if_neg hc, h]

theorem FileName.notMem_of_mem_parts {cs part : List Char} (h : part ∈ parts cs) : '/' ∉ part := by
  induction cs generalizing part with
  | nil =>
    rw [parts, List.mem_singleton] at h
    simp [h]
  | cons c cs ih =>
    rw [parts] at h
    split at h
    next =>
      rcases List.mem_cons.1 h with rfl | h
      · simp
      · exact ih h
    next hc =>
      split at h
      next =>
        rw [List.mem_singleton] at h
        simpa [h] using Ne.symm hc
      next first rest hparts =>
        rw [hparts] at ih
        rcases List.mem_cons.1 h with rfl | h
        · simpa using ⟨Ne.symm hc, ih List.mem_cons_self⟩
        · exact ih (List.mem_cons_of_mem first h)

theorem FileName.parts_of_notMem {part : List Char} (h : '/' ∉ part) : parts part = [part] := by
  induction part with
  | nil => rfl
  | cons c part ih =>
    rw [List.mem_cons, not_or] at h
    exact parts_cons (Ne.symm h.1) (ih h.2)

theorem FileName.parts_append {part : List Char} (h : '/' ∉ part) (rest : List Char) :
    parts (part ++ '/' :: rest) = part :: parts rest := by
  induction part with
  | nil => rfl
  | cons c part ih =>
    rw [List.mem_cons, not_or] at h
    exact parts_cons (Ne.symm h.1) (ih h.2)

theorem FileName.joinParts_cons_cons (part next : List Char) (ps : List (List Char)) :
    joinParts (part :: next :: ps) = part ++ '/' :: joinParts (next :: ps) := by
  simp [joinParts, List.intercalate_cons_cons]

/-- Parts are found again between the slashes that join them. -/
theorem FileName.parts_joinParts {ps : List (List Char)} (hne : ps ≠ []) (h : ∀ part ∈ ps, '/' ∉ part) :
    parts (joinParts ps) = ps := by
  induction ps with
  | nil => exact absurd rfl hne
  | cons part ps ih =>
    rw [List.forall_mem_cons] at h
    cases ps with
    | nil => simp [joinParts, parts_of_notMem h.1]
    | cons next ps => rw [joinParts_cons_cons, parts_append h.1, ih (List.cons_ne_nil _ _) h.2]

/-! ## Places -/

namespace Place

/-- The names are such that a path can have them. -/
def Proper (p : Place) : Prop := ∀ name ∈ p.names, name ≠ [] ∧ '/' ∉ name

theorem Proper.child {p : Place} (h : p.Proper) {name : List Char} (hname : name ≠ [] ∧ '/' ∉ name) :
    (p.child name).Proper := by
  intro name' hmem
  rcases List.mem_append.1 hmem with hmem | hmem
  · exact h name' hmem
  · rwa [List.mem_singleton.1 hmem]

theorem Proper.parent {p : Place} (h : p.Proper) : p.parent.Proper := by
  have houtward : outward ≠ [] ∧ '/' ∉ outward := by decide
  unfold Place.parent
  split
  next =>
    split
    · exact h.child houtward
    · exact fun name hmem => h name (List.dropLast_subset _ hmem)
  next =>
    split
    · exact h
    · exact h.child houtward

theorem step_of_isName {p : Place} {part : List Char} (h : isName part) : p.step part = p.child part := by
  simp only [isName, Bool.and_eq_true, Bool.not_eq_true', bne_iff_ne] at h
  simp [Place.step, h]

theorem Proper.step {p : Place} (h : p.Proper) {part : List Char} (hpart : '/' ∉ part) :
    (p.step part).Proper := by
  unfold Place.step
  split
  next => exact h
  next hsilent =>
    split
    · exact h.parent
    · refine h.child ⟨?_, hpart⟩
      rintro rfl
      exact hsilent rfl

theorem proper_ofPath (path : String) : (ofPath path).Proper := by
  have hfold : ∀ (ps : List (List Char)) (p : Place), p.Proper → (∀ part ∈ ps, '/' ∉ part) →
      (ps.foldl step p).Proper := by
    intro ps
    induction ps with
    | nil => exact fun p hp _ => hp
    | cons part ps ih =>
      intro p hp hps
      rw [List.forall_mem_cons] at hps
      exact ih _ (hp.step hps.1) hps.2
  exact hfold _ _ nofun fun part => notMem_of_mem_parts

theorem Proper.joinParts_names {p : Place} (h : p.Proper) :
    p.names = [] ∨ ∃ c cs, joinParts p.names = c :: cs ∧ c ≠ '/' := by
  cases hnames : p.names with
  | nil => exact .inl rfl
  | cons name names =>
    obtain ⟨hne, hslash⟩ := h name (by simp [hnames])
    obtain ⟨c, cs, rfl⟩ := List.exists_cons_of_ne_nil hne
    rw [List.mem_cons, not_or] at hslash
    refine .inr ?_
    cases names with
    | nil => exact ⟨c, cs, by simp [joinParts], Ne.symm hslash.1⟩
    | cons next names => exact ⟨c, _, joinParts_cons_cons _ _ _, Ne.symm hslash.1⟩

theorem names_eq_of_joinParts {p q : Place} (hp : p.Proper) (hq : q.Proper)
    (h : joinParts p.names = joinParts q.names) : p.names = q.names := by
  rcases hp.joinParts_names with hpnil | ⟨c, cs, hpcons, -⟩
  · rcases hq.joinParts_names with hqnil | ⟨d, ds, hqcons, -⟩
    · rw [hpnil, hqnil]
    · rw [hpnil, hqcons] at h
      cases h
  · have hpne : p.names ≠ [] := by
      intro hnil
      rw [hnil] at hpcons
      cases hpcons
    have hqne : q.names ≠ [] := by
      intro hnil
      rw [hnil, hpcons] at h
      cases h
    rw [← parts_joinParts hpne fun name hname => (hp name hname).2, h,
      parts_joinParts hqne fun name hname => (hq name hname).2]

/-- Different places have different texts. -/
theorem Proper.eq_of_text_eq {p q : Place} (hp : p.Proper) (hq : q.Proper) (h : p.text = q.text) : p = q := by
  have hchars : (if p.rooted then ['/'] else []) ++ joinParts p.names =
      (if q.rooted then ['/'] else []) ++ joinParts q.names := String.ofList_injective h
  -- No name begins with a slash, so one in front stands for the root.
  have hslash : ∀ {p : Place}, p.Proper →
      (((if p.rooted then ['/'] else []) ++ joinParts p.names).head? = some '/' ↔ p.rooted = true) := by
    intro p hp
    rcases hp.joinParts_names with hnil | ⟨c, cs, hcons, hc⟩
    · cases hrooted : p.rooted <;> simp [hnil, joinParts]
    · cases hrooted : p.rooted <;> simp [hcons, hc]
  have hrooted : p.rooted = q.rooted := by
    rw [Bool.eq_iff_iff, ← hslash hp, ← hslash hq, hchars]
  rw [hrooted] at hchars
  have hnames := names_eq_of_joinParts hp hq (List.append_cancel_left hchars)
  obtain ⟨_, _⟩ := p
  obtain ⟨_, _⟩ := q
  exact congrArg₂ Place.mk hrooted hnames

end Place

namespace Files

variable {f f' : Files} {path : String} {p q : Place}

/-! ## Following paths -/

theorem follow_eq_ok {part : List Char} :
    f.follow p part = .ok q ↔
      f.hasFolder p ∧ p.step part = q ∧ (isName part → isTooLong part = false ∧ f.holds (p.child part)) := by
  unfold follow
  cases hfolder : f.hasFolder p with
  | false => simp
  | true =>
    cases hname : isName part with
    | false => simp
    | true =>
      rw [Place.step_of_isName hname]
      cases hlong : isTooLong part with
      | true => simp
      | false => cases hholds : f.holds (p.child part) <;> simp

theorem find_append_singleton_eq_ok {ps : List (List Char)} {part : List Char} :
    f.find path (ps ++ [part]) = .ok q ↔ ∃ p, f.find path ps = .ok p ∧ f.follow p part = .ok q := by
  unfold find
  rw [List.foldlM_append, Except.bind_eq_ok]
  simp

/-- A path that can be followed leads to the place that its parts name. -/
theorem eq_foldl_of_find {ps : List (List Char)} (h : f.find path ps = .ok p) :
    p = ps.foldl Place.step (Place.origin path) := by
  induction ps using List.reverseRecOn generalizing p with
  | nil => exact (Except.pure_eq_ok.1 h).symm
  | append_singleton ps part ih =>
    obtain ⟨p', hp', hfollow⟩ := find_append_singleton_eq_ok.1 h
    rw [List.foldl_append, ← ih hp']
    exact (follow_eq_ok.1 hfollow).2.1.symm

theorem hasFolder_congr (h : f.folders = f'.folders) (p : Place) : f.hasFolder p = f'.hasFolder p := by
  rw [hasFolder, hasFolder, h]

/-- All but the last of what a path passes are folders, so only the place that it leads to can be
missing from other files with the same folders. -/
theorem find_of_holds (hfolders : f.folders = f'.folders) {ps : List (List Char)}
    (h : f.find path ps = .ok p) (hp : f'.holds p) : f'.find path ps = .ok p := by
  -- From the end of the path, since only its last part need not be a folder.
  induction ps using List.reverseRecOn generalizing p with
  | nil => exact h
  | append_singleton ps part ih =>
    obtain ⟨p', hp', hfollow⟩ := find_append_singleton_eq_ok.1 h
    obtain ⟨hfolder, rfl, hname⟩ := follow_eq_ok.1 hfollow
    rw [hasFolder_congr hfolders] at hfolder
    refine find_append_singleton_eq_ok.2 ⟨p', ih hp' (by simp [holds, hfolder]), ?_⟩
    refine follow_eq_ok.2 ⟨hfolder, rfl, fun hisName => ⟨(hname hisName).1, ?_⟩⟩
    rwa [Place.step_of_isName hisName] at hp

/-! ## Reading -/

theorem read_eq_ok {text : String} :
    f.read path = .ok text ↔
      checkPath path = .ok () ∧ f.find path (parts path.toList) = .ok (Place.ofPath path) ∧
        f.hasFolder (Place.ofPath path) = false ∧ f.text? (Place.ofPath path) = some text := by
  unfold read
  simp only [Except.bind_eq_ok]
  constructor
  · rintro ⟨_, hcheck, p, hfind, htext⟩
    obtain rfl : p = Place.ofPath path := eq_foldl_of_find hfind
    split at htext
    next => cases htext
    next hfolder =>
      split at htext
      next hsome =>
        obtain rfl := Except.ok.inj htext
        exact ⟨hcheck, hfind, by simpa using hfolder, hsome⟩
      next => cases htext
  · rintro ⟨hcheck, hfind, hfolder, htext⟩
    refine ⟨(), hcheck, _, hfind, ?_⟩
    simp [hfolder, htext]

/-- Reading depends on nothing but the folders and the text at the place itself. -/
theorem read_of_text? (hfolders : f.folders = f'.folders) {text : String} (h : f.read path = .ok text)
    (htext : f'.text? (Place.ofPath path) = some text) : f'.read path = .ok text := by
  obtain ⟨hcheck, hfind, hfolder, -⟩ := read_eq_ok.1 h
  refine read_eq_ok.2 ⟨hcheck, find_of_holds hfolders hfind (by simp [holds, htext]), ?_, htext⟩
  rwa [← hasFolder_congr hfolders]

theorem read_congr (hfolders : f.folders = f'.folders)
    (htext : f.text? (Place.ofPath path) = f'.text? (Place.ofPath path)) (text : String) :
    f.read path = .ok text ↔ f'.read path = .ok text := by
  constructor <;> intro h
  · exact read_of_text? hfolders h (htext.symm.trans (read_eq_ok.1 h).2.2.2)
  · exact read_of_text? hfolders.symm h (htext.trans (read_eq_ok.1 h).2.2.2)

/-! ## Writing -/

theorem fileIn_eq_ok {folder : Place} {name : List Char} {slash : Bool} :
    f.fileIn folder name slash = .ok p ↔
      f.hasFolder folder ∧ slash = false ∧ isTooLong name = false ∧ f.hasFolder (folder.child name) = false ∧
        folder.child name = p := by
  unfold fileIn
  cases f.hasFolder folder <;> cases slash <;> cases isTooLong name <;>
    cases f.hasFolder (folder.child name) <;> simp

/-- A file that can be written to has a name in a folder that is there. -/
theorem target_eq_ok (h : f.target path = .ok p) :
    checkPath path = .ok () ∧ f.hasFolder p = false ∧ ∃ before last folder,
      parts path.toList = before ++ [last] ∧ isName last ∧ f.find path before = .ok folder ∧
        f.hasFolder folder ∧ isTooLong last = false ∧ folder.child last = p := by
  obtain ⟨_, hcheck, h⟩ := Except.bind_eq_ok.1 h
  dsimp only at h
  split at h
  next => cases h
  next last before hdrop =>
    split at h
    next hname =>
      obtain ⟨folder, hfind, h⟩ := Except.bind_eq_ok.1 h
      obtain ⟨hfolder, hslash, hlong, hfree, rfl⟩ := fileIn_eq_ok.1 h
      refine ⟨hcheck, hfree, before.reverse, last, folder, ?_, hname, hfind, hfolder, hlong, rfl⟩
      -- The last part is not empty, so none has been dropped.
      rcases List.eq_nil_or_concat (parts path.toList) with hnil | ⟨init, part, hparts⟩
      · rw [hnil] at hdrop
        cases hdrop
      · rw [List.concat_eq_append] at hparts
        have hpart : part.isEmpty = false := by
          simpa [endsIn, hparts] using hslash
        rw [hparts, List.reverse_append, List.reverse_singleton, List.singleton_append,
          List.dropWhile_cons_of_neg (by simp [hpart])] at hdrop
        obtain ⟨rfl, rfl⟩ := List.cons.inj hdrop
        rw [List.reverse_reverse, hparts]
    next =>
      obtain ⟨_, -, h⟩ := Except.bind_eq_ok.1 h
      cases h

/-- What is written to is found from then on. -/
theorem find_of_target (hfolders : f.folders = f'.folders) (h : f.target path = .ok p) (hp : f'.holds p) :
    f'.find path (parts path.toList) = .ok p := by
  obtain ⟨-, -, before, last, folder, hparts, hname, hfind, hfolder, hlong, rfl⟩ := target_eq_ok h
  rw [hasFolder_congr hfolders] at hfolder
  rw [hparts]
  refine find_append_singleton_eq_ok.2 ⟨folder, find_of_holds hfolders hfind (by simp [holds, hfolder]), ?_⟩
  exact follow_eq_ok.2 ⟨hfolder, Place.step_of_isName hname, fun _ => ⟨hlong, hp⟩⟩

/-- The folders are the same, and so is every file at a place to which none of the paths leads. -/
structure AgreeOutside (f f' : Files) (paths : List String) : Prop where
  folders_eq : f.folders = f'.folders
  find?_eq : ∀ key, (∀ path ∈ paths, key ≠ (Place.ofPath path).text) →
    f.entries.find? key = f'.entries.find? key

theorem AgreeOutside.trans {f'' : Files} {paths paths' : List String} (h : f.AgreeOutside f' paths)
    (h' : f'.AgreeOutside f'' paths') : f.AgreeOutside f'' (paths ++ paths') where
  folders_eq := h.folders_eq.trans h'.folders_eq
  find?_eq := by
    intro key hkey
    obtain ⟨hpaths, hpaths'⟩ := List.forall_mem_append.1 hkey
    exact (h.find?_eq key hpaths).trans (h'.find?_eq key hpaths')

/-- A file elsewhere is read as before, whether it is there or not. -/
theorem AgreeOutside.read_iff {paths : List String} (h : f.AgreeOutside f' paths)
    (hpath : ∀ other ∈ paths, Place.ofPath path ≠ Place.ofPath other) (text : String) :
    f.read path = .ok text ↔ f'.read path = .ok text := by
  refine read_congr h.folders_eq (h.find?_eq _ fun other hother htext => hpath other hother ?_) text
  exact (Place.proper_ofPath path).eq_of_text_eq (Place.proper_ofPath other) htext

/-- A file that has been written has the text, and nothing else has changed. -/
theorem write_eq_ok {text : String} (h : f.write path text = .ok f') :
    f'.read path = .ok text ∧ f.AgreeOutside f' [path] := by
  obtain ⟨p, htarget, hwrite⟩ := Except.bind_eq_ok.1 h
  obtain rfl := Except.pure_eq_ok.1 hwrite
  have hput : ∀ key, (f.entries.put p.text text).find? key =
      if key = p.text then some text else f.entries.find? key :=
    fun key => Association.find?_put _ _ _ _
  have hself : Files.text? { f with entries := f.entries.put p.text text } p = some text :=
    (hput p.text).trans (if_pos rfl)
  have hfind : Files.find { f with entries := f.entries.put p.text text } path (parts path.toList) = .ok p :=
    find_of_target (by rfl) htarget (by simp [holds, hself])
  obtain rfl : p = Place.ofPath path := eq_foldl_of_find hfind
  obtain ⟨hcheck, hfree, -⟩ := target_eq_ok htarget
  refine ⟨read_eq_ok.2 ⟨hcheck, hfind, hfree, hself⟩, by rfl, fun key hkey => ?_⟩
  rw [hput, if_neg (hkey path List.mem_cons_self)]

end Files

end Stencil
