import Mathlib.Data.List.Basic
import Stencil.Json.Document

/-!
# Reading documents

Whatever spells a document is read as its value: the reader accepts all that the grammar
admits, with any blanks and any escapes, and takes no character more.
-/

namespace Stencil

namespace Json

/-! ## Numbers -/

/-- What follows a number does not go on with it. -/
def Ends (rest : List Char) : Prop :=
  ∀ c ∈ rest.head?, c.isDigit = false ∧ c ≠ '.' ∧ c ≠ 'e' ∧ c ≠ 'E'

/-- All digits are read, as far as they go. -/
theorem readDigits_append {digits : List Nat} {cs rest : List Char} (h : DigitsSpelled digits cs)
    (hrest : ∀ c ∈ rest.head?, c.isDigit = false) : readDigits (cs ++ rest) = (digits, rest) := by
  obtain ⟨-, hlt, rfl⟩ := h
  have hdigits : ∀ c ∈ digits.map Nat.digitChar, c.isDigit := by
    intro c hc
    obtain ⟨d, hd, rfl⟩ := List.mem_map.1 hc
    rw [Nat.isDigit_digitChar, decide_eq_true (hlt d hd)]
  have hvalues : (digits.map Nat.digitChar).map (fun c => c.toNat - '0'.toNat) = digits := by
    rw [List.map_map]
    exact (List.map_congr_left fun d hd => Nat.toNat_digitChar_sub_48_of_lt_ten (hlt d hd)).trans
      (List.map_id digits)
  have hstop : rest.takeWhile Char.isDigit = [] ∧ rest.dropWhile Char.isDigit = rest := by
    cases rest with
    | nil => exact ⟨rfl, rfl⟩
    | cons c rest => simp [hrest c rfl]
  unfold readDigits
  rw [List.takeWhile_append_of_pos hdigits, List.dropWhile_append_of_pos hdigits, hstop.1, hstop.2,
    List.append_nil, hvalues]

theorem readWhole_append {digits : List Nat} {cs rest : List Char}
    (hzero : digits.head? = some 0 → digits = [0]) (h : DigitsSpelled digits cs)
    (hrest : ∀ c ∈ rest.head?, c.isDigit = false) : readWhole (cs ++ rest) = some (digits, rest) := by
  unfold readWhole
  rw [readDigits_append h hrest]
  split
  next heq => exact absurd (Prod.mk.inj heq).1 h.1
  next heq =>
    obtain ⟨rfl, -⟩ := Prod.mk.inj heq
    cases hzero rfl
  next heq => rw [heq]

theorem readFraction_append {fraction : Option (List Nat)} {cs rest : List Char}
    (h : FractionSpelled fraction cs) (hrest : ∀ c ∈ rest.head?, c.isDigit = false ∧ c ≠ '.') :
    readFraction (cs ++ rest) = some (fraction, rest) := by
  cases h with
  | none =>
    cases rest with
    | nil => rfl
    | cons c rest => simp [readFraction, (hrest c rfl).2]
  | some h =>
    have hdigits := readDigits_append h fun c hc => (hrest c hc).1
    simp only [readFraction, List.cons_append, hdigits]
    split
    next heq => exact absurd (Prod.mk.inj heq).1 h.1
    next heq =>
      obtain ⟨rfl, rfl⟩ := Prod.mk.inj heq
      rfl

theorem DigitsSpelled.exists_cons {digits : List Nat} {cs : List Char} (h : DigitsSpelled digits cs) :
    ∃ c tail, cs = c :: tail ∧ c.isDigit := by
  obtain ⟨hne, hlt, rfl⟩ := h
  obtain ⟨d, ds, rfl⟩ := List.exists_cons_of_ne_nil hne
  refine ⟨_, _, rfl, ?_⟩
  rw [Nat.isDigit_digitChar, decide_eq_true (hlt d List.mem_cons_self)]

theorem ne_of_isDigit {c : Char} (h : c.isDigit) (other : Char) (hother : other.isDigit = false) :
    c ≠ other := by
  rintro rfl
  rw [h] at hother
  cases hother

theorem readExponent_append {exponent : Option Int} {cs rest : List Char}
    (h : ExponentSpelled exponent cs) (hrest : Ends rest) :
    readExponent (cs ++ rest) = some (exponent, rest) := by
  cases h with
  | none =>
    cases rest with
    | nil => rfl
    | cons c rest => simp [readExponent, (hrest c rfl).2.2]
  | @some mark negative sign digits cs hmark hsign h =>
    have hdigits := readDigits_append h fun c hc => (hrest c hc).1
    obtain ⟨c, tail, rfl, hc⟩ := h.exists_cons
    have hne := h.1
    rw [List.cons_append] at hdigits
    cases hsign with
    | none =>
      have hplain : c ≠ '-' ∧ c ≠ '+' := ⟨ne_of_isDigit hc _ rfl, ne_of_isDigit hc _ rfl⟩
      simp [readExponent, hmark, hplain, hdigits]
    | plus => simp [readExponent, hmark, hdigits]
    | minus => simp [readExponent, hmark, hdigits]

theorem FractionSpelled.isDigit_head {fraction : Option (List Nat)} {cs rest : List Char}
    (h : FractionSpelled fraction cs) (hrest : ∀ c ∈ rest.head?, c.isDigit = false) :
    ∀ c ∈ (cs ++ rest).head?, c.isDigit = false := by
  cases h with
  | none => exact hrest
  | some h =>
    rintro c ⟨⟩
    rfl

theorem ExponentSpelled.isDigit_head {exponent : Option Int} {cs rest : List Char}
    (h : ExponentSpelled exponent cs) (hrest : Ends rest) :
    ∀ c ∈ (cs ++ rest).head?, c.isDigit = false ∧ c ≠ '.' := by
  cases h with
  | none => exact fun c hc => ⟨(hrest c hc).1, (hrest c hc).2.1⟩
  | some hmark =>
    rintro c ⟨⟩
    rcases hmark with rfl | rfl <;> decide

/-- A number is read as the literal that was written. -/
theorem readNumber_append {n : NumberLiteral} {cs rest : List Char} (h : n.Spelled cs)
    (hrest : Ends rest) : readNumber (cs ++ rest) = some (n, rest) := by
  obtain ⟨negative, digits, fraction, exponent⟩ := n
  obtain ⟨hzero, whole, fractionChars, exponentChars, hwhole, hfraction, hexponent, rfl⟩ := h
  have hexponentHead := hexponent.isDigit_head hrest
  have hfractionHead := hfraction.isDigit_head fun c hc => (hexponentHead c hc).1
  have hreadWhole := readWhole_append hzero hwhole hfractionHead
  have hreadFraction := readFraction_append hfraction hexponentHead
  have hreadExponent := readExponent_append hexponent hrest
  obtain ⟨c, tail, rfl, hc⟩ := hwhole.exists_cons
  rw [List.cons_append] at hreadWhole
  have hsign : c ≠ '-' := ne_of_isDigit hc _ rfl
  cases negative <;> simp [readNumber, hsign, hreadWhole, hreadFraction, hreadExponent]

/-- A literal begins with a sign or a digit. -/
theorem NumberLiteral.Spelled.exists_cons {n : NumberLiteral} {cs : List Char} (h : n.Spelled cs) :
    ∃ c tail, cs = c :: tail ∧ (c = '-' ∨ c.isDigit) := by
  obtain ⟨-, whole, fraction, exponent, hwhole, -, -, rfl⟩ := h
  obtain ⟨c, tail, rfl, hc⟩ := hwhole.exists_cons
  cases n.negative with
  | true => exact ⟨'-', _, rfl, .inl rfl⟩
  | false => exact ⟨c, _, rfl, .inr hc⟩

theorem ne_of_signOrDigit {c : Char} (h : c = '-' ∨ c.isDigit) (other : Char) (hsign : other ≠ '-')
    (hdigit : other.isDigit = false) : c ≠ other := by
  rcases h with rfl | h
  · exact hsign.symm
  · exact ne_of_isDigit h other hdigit

/-! ## Values by their first character -/

/-- What begins no other value is read as a number. -/
theorem readValue_other {c : Char} (h : c ∉ ['n', 't', 'f', '"', '[', '{']) (fuel : Nat) (cs : List Char) :
    readValue (fuel + 1) (c :: cs) = (readNumber (c :: cs)).map fun (n, rest) => (n.value, rest) := by
  simp only [List.mem_cons, List.not_mem_nil, or_false, not_or] at h
  obtain ⟨hnull, htrue, hfalse, hquote, hbracket, hbrace⟩ := h
  simp [readValue, hnull, htrue, hfalse, hquote, hbracket, hbrace]
  cases readNumber (c :: cs) <;> rfl

theorem readValue_number {c : Char} (h : c = '-' ∨ c.isDigit) (fuel : Nat) (cs : List Char) :
    readValue (fuel + 1) (c :: cs) = (readNumber (c :: cs)).map fun (n, rest) => (n.value, rest) := by
  have hne := ne_of_signOrDigit h
  refine readValue_other ?_ fuel cs
  simp only [List.mem_cons, List.not_mem_nil, or_false, not_or]
  exact ⟨hne 'n' (by decide) rfl, hne 't' (by decide) rfl, hne 'f' (by decide) rfl,
    hne '"' (by decide) rfl, hne '[' (by decide) rfl, hne '{' (by decide) rfl⟩

theorem readValue_text (fuel : Nat) (cs : List Char) :
    readValue (fuel + 1) ('"' :: cs)
      = (readText cs).map fun (content, rest) => (content.elim .broken .text, rest) := by
  change (readText cs).bind _ = _
  cases readText cs <;> rfl

theorem readValue_bracket (fuel : Nat) (cs : List Char) :
    readValue (fuel + 1) ('[' :: cs) = match skipBlanks cs with
      | ']' :: rest => some (.array [], rest)
      | rest => (readItems fuel rest).bind fun (items, rest) => some (.array items, rest) :=
  rfl

theorem readValue_brace (fuel : Nat) (cs : List Char) :
    readValue (fuel + 1) ('{' :: cs) = match skipBlanks cs with
      | '}' :: rest => some (.object [], rest)
      | rest => (readFields fuel rest).bind fun (fields, rest) => some (ofNamedFields fields, rest) :=
  rfl

theorem readValue_emptyArray {cs rest : List Char} (h : skipBlanks cs = ']' :: rest) (fuel : Nat) :
    readValue (fuel + 1) ('[' :: cs) = some (.array [], rest) := by
  rw [readValue_bracket, h]
  rfl

theorem readValue_array {cs tail : List Char} {c : Char} (h : skipBlanks cs = c :: tail) (hc : c ≠ ']')
    (fuel : Nat) :
    readValue (fuel + 1) ('[' :: cs)
      = (readItems fuel (c :: tail)).map fun (items, rest) => (.array items, rest) := by
  rw [readValue_bracket, h]
  split
  next hclose => exact absurd (List.cons.inj hclose).1 hc
  next => cases readItems fuel (c :: tail) <;> rfl

theorem readValue_emptyObject {cs rest : List Char} (h : skipBlanks cs = '}' :: rest) (fuel : Nat) :
    readValue (fuel + 1) ('{' :: cs) = some (.object [], rest) := by
  rw [readValue_brace, h]
  rfl

theorem readValue_object {cs tail : List Char} {c : Char} (h : skipBlanks cs = c :: tail) (hc : c ≠ '}')
    (fuel : Nat) :
    readValue (fuel + 1) ('{' :: cs)
      = (readFields fuel (c :: tail)).map fun (fields, rest) => (ofNamedFields fields, rest) := by
  rw [readValue_brace, h]
  split
  next hclose => exact absurd (List.cons.inj hclose).1 hc
  next => cases readFields fuel (c :: tail) <;> rfl

/-! ## Items and fields by what ends them -/

section

variable {fuel : Nat} {cs afterName inner left next rest : List Char} {name : Option String} {v : Json}

theorem readItems_succ (fuel : Nat) (cs : List Char) :
    readItems (fuel + 1) cs = (readValue fuel cs).bind fun (item, rest) =>
      match skipBlanks rest with
      | ',' :: rest =>
        (readItems fuel (skipBlanks rest)).bind fun (items, rest) => some (item :: items, rest)
      | ']' :: rest => some ([item], rest)
      | _ => none :=
  rfl

theorem readItems_last (hitem : readValue fuel cs = some (v, left)) (hstop : skipBlanks left = ']' :: rest) :
    readItems (fuel + 1) cs = some ([v], rest) := by
  simp only [readItems_succ, hitem, hstop, Option.bind_some]

theorem readItems_more {vs : List Json} (hitem : readValue fuel cs = some (v, left))
    (hstop : skipBlanks left = ',' :: next) (hrest : readItems fuel (skipBlanks next) = some (vs, rest)) :
    readItems (fuel + 1) cs = some (v :: vs, rest) := by
  simp only [readItems_succ, hitem, hstop, hrest, Option.bind_some]

theorem readFields_quote (fuel : Nat) (cs : List Char) :
    readFields (fuel + 1) ('"' :: cs) = (readText cs).bind fun (name, rest) =>
      match skipBlanks rest with
      | ':' :: rest =>
        (readValue fuel (skipBlanks rest)).bind fun (value, rest) =>
          match skipBlanks rest with
          | ',' :: rest =>
            (readFields fuel (skipBlanks rest)).bind fun (fields, rest) => some ((name, value) :: fields, rest)
          | '}' :: rest => some ([(name, value)], rest)
          | _ => none
      | _ => none :=
  rfl

theorem readFields_last (hname : readText cs = some (name, afterName))
    (hcolon : skipBlanks afterName = ':' :: inner) (hvalue : readValue fuel (skipBlanks inner) = some (v, left))
    (hstop : skipBlanks left = '}' :: rest) :
    readFields (fuel + 1) ('"' :: cs) = some ([(name, v)], rest) := by
  simp only [readFields_quote, hname, hcolon, hvalue, hstop, Option.bind_some]

theorem readFields_more {fields : List (Option String × Json)} (hname : readText cs = some (name, afterName))
    (hcolon : skipBlanks afterName = ':' :: inner) (hvalue : readValue fuel (skipBlanks inner) = some (v, left))
    (hstop : skipBlanks left = ',' :: next)
    (hrest : readFields fuel (skipBlanks next) = some (fields, rest)) :
    readFields (fuel + 1) ('"' :: cs) = some ((name, v) :: fields, rest) := by
  simp only [readFields_quote, hname, hcolon, hvalue, hstop, hrest, Option.bind_some]

end

/-! ## Texts -/

theorem readPieces_append {pieces : List Piece} {cs : List Char} (h : PiecesSpelled pieces cs)
    (rest : List Char) : readPieces (cs ++ '"' :: rest) = some (pieces, rest) := by
  induction h with
  | nil => simp [readPieces]
  | @char c pieces cs _ hbackslash hprintable _ ih =>
    have hcontrol : ¬c.toNat < 32 := Nat.not_lt.2 hprintable
    simp [readPieces, hbackslash, hcontrol, ih]
  | escape hmark _ ih =>
    simp only [escapes, List.mem_cons, Prod.mk.injEq, List.not_mem_nil, or_false] at hmark
    rcases hmark with ⟨rfl, rfl⟩ | ⟨rfl, rfl⟩ | ⟨rfl, rfl⟩ | ⟨rfl, rfl⟩ | ⟨rfl, rfl⟩ | ⟨rfl, rfl⟩ |
      ⟨rfl, rfl⟩ | ⟨rfl, rfl⟩ <;> simp [readPieces, escapes, List.lookup_cons, ih]
  | unit hcode _ ih => simp [readPieces, hcode, ih]

theorem readText_append {content : Option String} {cs : List Char} (h : TextSpelled content cs)
    (rest : List Char) :
    ∃ inner, cs = '"' :: inner ++ ['"'] ∧ readText (inner ++ '"' :: rest) = some (content, rest) := by
  obtain ⟨pieces, inner, hpieces, rfl, rfl⟩ := h
  exact ⟨inner, rfl, by simp [readText, readPieces_append hpieces]⟩

/-! ## Blanks -/

theorem skipBlanks_append {blanks : List Char} (h : Document.Blank blanks) (cs : List Char) :
    skipBlanks (blanks ++ cs) = skipBlanks cs :=
  List.dropWhile_append_of_pos h

theorem skipBlanks_cons {c : Char} (h : isBlank c = false) (cs : List Char) :
    skipBlanks (c :: cs) = c :: cs :=
  List.dropWhile_cons_of_neg (by simp [h])

end Json

namespace Document

open Json

/-! ## Documents -/

/-- The first character neither is blank nor closes an array. -/
def Begins (cs : List Char) : Prop := ∃ c tail, cs = c :: tail ∧ isBlank c = false ∧ c ≠ ']'

theorem Spelled.begins {d : Document} {cs : List Char} (h : d.Spelled cs) : Begins cs := by
  cases d with
  | null => exact ⟨'n', _, h, rfl, by decide⟩
  | bool value =>
    cases value
    · exact ⟨'f', _, h, rfl, by decide⟩
    · exact ⟨'t', _, h, rfl, by decide⟩
  | number n =>
    obtain ⟨c, tail, rfl, hc⟩ := h.exists_cons
    have hne := ne_of_signOrDigit hc
    refine ⟨c, tail, rfl, ?_, hne ']' (by decide) rfl⟩
    simp [isBlank, hne ' ' (by decide) rfl, hne '\t' (by decide) rfl, hne '\n' (by decide) rfl,
      hne '\r' (by decide) rfl]
  | text content =>
    obtain ⟨-, inner, -, -, rfl⟩ := h
    exact ⟨'"', _, rfl, rfl, by decide⟩
  | array items =>
    obtain ⟨inner, -, rfl⟩ := h
    exact ⟨'[', _, rfl, rfl, by decide⟩
  | object fields =>
    obtain ⟨inner, -, rfl⟩ := h
    exact ⟨'{', _, rfl, rfl, by decide⟩

/-- Behind the blanks in front of it stands what is padded. -/
theorem Padded.skipBlanks_append {spelled : List Char → Prop} {cs : List Char} (h : Padded spelled cs)
    (hbegins : ∀ cs, spelled cs → Begins cs) :
    ∃ body after, spelled body ∧ Blank after ∧ body.length ≤ cs.length ∧
      ∀ rest, skipBlanks (cs ++ rest) = body ++ (after ++ rest) := by
  obtain ⟨before, body, after, hbefore, hbody, hafter, rfl⟩ := h
  refine ⟨body, after, hbody, hafter, by simp; omega, fun rest => ?_⟩
  obtain ⟨c, tail, rfl, hblank, -⟩ := hbegins body hbody
  simp only [List.append_assoc, List.cons_append]
  rw [Json.skipBlanks_append hbefore, skipBlanks_cons hblank]

theorem ends_blanks {after : List Char} (h : Blank after) {rest : List Char} (hrest : Ends rest) :
    Ends (after ++ rest) := by
  cases after with
  | nil => exact hrest
  | cons b after =>
    rintro _ ⟨⟩
    have hb : isBlank b := h b List.mem_cons_self
    simp only [isBlank, Bool.or_eq_true, decide_eq_true_eq] at hb
    rcases hb with ((rfl | rfl) | rfl) | rfl <;> decide

theorem ends_nil : Ends [] := nofun

theorem ends_cons {c : Char} (h : c ∈ [',', ']', '}']) (rest : List Char) : Ends (c :: rest) := by
  rintro _ ⟨⟩
  simp only [List.mem_cons, List.not_mem_nil, or_false] at h
  rcases h with rfl | rfl | rfl <;> decide

/-- Whatever spells the document is read as its value, and what follows is left. Every second
call of the reader consumes a character. -/
def Reads (d : Document) : Prop :=
  ∀ (cs rest : List Char) (fuel : Nat), d.Spelled cs → Ends rest → 2 * cs.length ≤ fuel →
    readValue fuel (cs ++ rest) = some (d.value, rest)

theorem skipBlanks_stop {after : List Char} (h : Blank after) {c : Char} (hc : isBlank c = false)
    (rest : List Char) : skipBlanks (after ++ c :: rest) = c :: rest := by
  rw [Json.skipBlanks_append h, skipBlanks_cons hc]

/-- A document with blanks around it is read up to the character that ends it. -/
theorem Reads.padded {d : Document} (hd : d.Reads) {item : List Char} (h : Padded d.Spelled item)
    {c : Char} (hc : c ∈ [',', ']', '}']) (rest : List Char) (fuel : Nat)
    (hfuel : 2 * item.length ≤ fuel) :
    ∃ left, readValue fuel (skipBlanks (item ++ c :: rest)) = some (d.value, left) ∧
      skipBlanks left = c :: rest := by
  have hblank : isBlank c = false := by
    simp only [List.mem_cons, List.not_mem_nil, or_false] at hc
    rcases hc with rfl | rfl | rfl <;> rfl
  obtain ⟨body, after, hbody, hafter, hlength, hskip⟩ := h.skipBlanks_append fun _ => Spelled.begins
  refine ⟨after ++ c :: rest, ?_, skipBlanks_stop hafter hblank rest⟩
  rw [hskip]
  exact hd body _ fuel hbody (ends_blanks hafter (ends_cons hc rest)) (by omega)

/-- A name with blanks around it is read up to the colon. -/
theorem readText_padded {name : Option String} {key : List Char} (h : Padded (TextSpelled name) key)
    (rest : List Char) :
    ∃ text left, skipBlanks (key ++ ':' :: rest) = '"' :: text ∧ readText text = some (name, left) ∧
      skipBlanks left = ':' :: rest := by
  have hbegins : ∀ cs, TextSpelled name cs → Begins cs := by
    rintro cs ⟨-, inner, -, -, rfl⟩
    exact ⟨'"', _, rfl, rfl, by decide⟩
  obtain ⟨body, after, hbody, hafter, -, hskip⟩ := h.skipBlanks_append hbegins
  obtain ⟨inner, rfl, hread⟩ := readText_append hbody (after ++ ':' :: rest)
  exact ⟨_, after ++ ':' :: rest, by simp [hskip], hread, skipBlanks_stop hafter rfl rest⟩

theorem readItems_append {items : List Document} (hitems : ∀ d ∈ items, d.Reads) (hne : items ≠ [])
    {inner : List Char} (h : ItemsSpelled items inner) (rest : List Char) (fuel : Nat)
    (hfuel : 2 * inner.length + 1 ≤ fuel) :
    readItems fuel (skipBlanks (inner ++ ']' :: rest)) = some (values items, rest) := by
  induction items generalizing inner fuel with
  | nil => exact absurd rfl hne
  | cons d ds ih =>
    obtain ⟨hd, hds⟩ := List.forall_mem_cons.1 hitems
    obtain ⟨fuel, rfl⟩ := Nat.exists_eq_add_one_of_ne_zero (n := fuel) (by omega)
    cases ds with
    | nil =>
      obtain ⟨left, hread, hstop⟩ := hd.padded h (c := ']') (by decide) rest fuel (by omega)
      exact readItems_last hread hstop
    | cons next ds =>
      obtain ⟨item, inner, hitem, hinner, rfl⟩ := h
      simp only [List.length_append, List.length_cons] at hfuel
      obtain ⟨left, hread, hstop⟩ :=
        hd.padded hitem (c := ',') (by decide) (inner ++ ']' :: rest) fuel (by omega)
      have hrest := ih hds (List.cons_ne_nil _ _) hinner fuel (by omega)
      simp only [List.append_assoc, List.cons_append]
      exact readItems_more hread hstop hrest

theorem readFields_append {fields : List (Option String × Document)}
    (hfields : ∀ field ∈ fields, field.2.Reads) (hne : fields ≠ []) {inner : List Char}
    (h : FieldsSpelled fields inner) (rest : List Char) (fuel : Nat)
    (hfuel : 2 * inner.length + 1 ≤ fuel) :
    readFields fuel (skipBlanks (inner ++ '}' :: rest)) = some (fieldValues fields, rest) := by
  induction fields generalizing inner fuel with
  | nil => exact absurd rfl hne
  | cons field fields ih =>
    obtain ⟨name, d⟩ := field
    obtain ⟨hd, hds⟩ := List.forall_mem_cons.1 hfields
    obtain ⟨fuel, rfl⟩ := Nat.exists_eq_add_one_of_ne_zero (n := fuel) (by omega)
    cases fields with
    | nil =>
      obtain ⟨key, item, hkey, hitem, rfl⟩ := h
      simp only [List.length_append, List.length_cons] at hfuel
      obtain ⟨text, afterName, hquote, hname, hcolon⟩ := readText_padded hkey (item ++ '}' :: rest)
      obtain ⟨left, hread, hstop⟩ := Reads.padded hd hitem (c := '}') (by decide) rest fuel (by omega)
      simp only [List.append_assoc, List.cons_append, hquote]
      exact readFields_last hname hcolon hread hstop
    | cons next fields =>
      obtain ⟨key, item, inner, hkey, hitem, hinner, rfl⟩ := h
      simp only [List.length_append, List.length_cons] at hfuel
      obtain ⟨text, afterName, hquote, hname, hcolon⟩ :=
        readText_padded hkey (item ++ ',' :: (inner ++ '}' :: rest))
      obtain ⟨left, hread, hstop⟩ :=
        Reads.padded hd hitem (c := ',') (by decide) (inner ++ '}' :: rest) fuel (by omega)
      have hrest := ih hds (List.cons_ne_nil _ _) hinner fuel (by omega)
      simp only [List.append_assoc, List.cons_append, hquote]
      exact readFields_more hname hcolon hread hstop hrest

/-- Items do not begin with the bracket that would close the array at once. -/
theorem ItemsSpelled.skipBlanks_append {d : Document} {ds : List Document} {inner : List Char}
    (h : ItemsSpelled (d :: ds) inner) (rest : List Char) :
    ∃ c tail, skipBlanks (inner ++ rest) = c :: tail ∧ c ≠ ']' := by
  have hitem : ∀ {item : List Char} (rest : List Char), Padded d.Spelled item →
      ∃ c tail, skipBlanks (item ++ rest) = c :: tail ∧ c ≠ ']' := by
    intro item rest hitem
    obtain ⟨body, after, hbody, -, -, hskip⟩ := hitem.skipBlanks_append fun _ => Spelled.begins
    obtain ⟨c, tail, rfl, -, hc⟩ := hbody.begins
    exact ⟨c, _, hskip rest, hc⟩
  cases ds with
  | nil =>
    exact hitem rest h
  | cons next ds =>
    obtain ⟨item, others, h, -, rfl⟩ := h
    simpa using hitem (',' :: (others ++ rest)) h

/-- Fields begin with the quote of a name. -/
theorem FieldsSpelled.skipBlanks_append {field : Option String × Document}
    {fields : List (Option String × Document)} {inner : List Char}
    (h : FieldsSpelled (field :: fields) inner) (rest : List Char) :
    ∃ tail, skipBlanks (inner ++ rest) = '"' :: tail := by
  obtain ⟨name, d⟩ := field
  have hname : ∃ key others, Padded (TextSpelled name) key ∧ inner = key ++ ':' :: others := by
    cases fields with
    | nil =>
      obtain ⟨key, item, hkey, -, rfl⟩ := h
      exact ⟨key, item, hkey, rfl⟩
    | cons next fields =>
      obtain ⟨key, item, others, hkey, -, -, rfl⟩ := h
      exact ⟨key, item ++ ',' :: others, hkey, by simp⟩
  obtain ⟨key, others, hkey, rfl⟩ := hname
  obtain ⟨text, -, hquote, -, -⟩ := readText_padded hkey (others ++ rest)
  exact ⟨text, by simpa using hquote⟩

theorem reads_array {items : List Document} (hitems : ∀ d ∈ items, d.Reads) : (array items).Reads := by
  intro cs rest fuel h _ hfuel
  obtain ⟨inner, hinner, rfl⟩ := h
  have hshape : '[' :: inner ++ [']'] ++ rest = '[' :: (inner ++ ']' :: rest) := by simp
  simp only [List.length_append, List.length_cons, List.length_nil] at hfuel
  obtain ⟨fuel, rfl⟩ := Nat.exists_eq_add_one_of_ne_zero (n := fuel) (by omega)
  cases items with
  | nil =>
    have hclose : isBlank ']' = false := rfl
    rw [hshape, readValue_emptyArray (skipBlanks_stop hinner hclose rest)]
    rfl
  | cons d ds =>
    have hread := readItems_append hitems (List.cons_ne_nil d ds) hinner rest fuel (by omega)
    obtain ⟨c, tail, hskip, hc⟩ := hinner.skipBlanks_append (']' :: rest)
    rw [hskip] at hread
    rw [hshape, readValue_array hskip hc, hread]
    rfl

theorem reads_object {fields : List (Option String × Document)}
    (hfields : ∀ field ∈ fields, field.2.Reads) : (object fields).Reads := by
  intro cs rest fuel h _ hfuel
  obtain ⟨inner, hinner, rfl⟩ := h
  have hshape : '{' :: inner ++ ['}'] ++ rest = '{' :: (inner ++ '}' :: rest) := by simp
  simp only [List.length_append, List.length_cons, List.length_nil] at hfuel
  obtain ⟨fuel, rfl⟩ := Nat.exists_eq_add_one_of_ne_zero (n := fuel) (by omega)
  cases fields with
  | nil =>
    have hclose : isBlank '}' = false := rfl
    rw [hshape, readValue_emptyObject (skipBlanks_stop hinner hclose rest)]
    rfl
  | cons field fields =>
    have hread := readFields_append hfields (List.cons_ne_nil field fields) hinner rest fuel (by omega)
    obtain ⟨tail, hskip⟩ := hinner.skipBlanks_append ('}' :: rest)
    rw [hskip] at hread
    rw [hshape, readValue_object hskip (by decide), hread]
    rfl

/-- The reader takes every document for its value. -/
theorem reads : ∀ d : Document, d.Reads
  | null => by
    intro cs rest fuel h _ hfuel
    obtain rfl := h
    obtain ⟨fuel, rfl⟩ := Nat.exists_eq_add_one_of_ne_zero (n := fuel) (by simp at hfuel; omega)
    rfl
  | bool b => by
    intro cs rest fuel h _ hfuel
    cases b <;> obtain rfl := h <;>
      (obtain ⟨fuel, rfl⟩ := Nat.exists_eq_add_one_of_ne_zero (n := fuel) (by simp at hfuel; omega)
       rfl)
  | number n => by
    intro cs rest fuel h hrest hfuel
    have hread := readNumber_append h hrest
    obtain ⟨c, tail, rfl, hc⟩ := h.exists_cons
    simp only [List.length_cons] at hfuel
    obtain ⟨fuel, rfl⟩ := Nat.exists_eq_add_one_of_ne_zero (n := fuel) (by omega)
    rw [List.cons_append] at hread ⊢
    rw [readValue_number hc, hread]
    rfl
  | text content => by
    intro cs rest fuel h _ hfuel
    obtain ⟨inner, rfl, hread⟩ := readText_append h rest
    simp only [List.length_append, List.length_cons] at hfuel
    obtain ⟨fuel, rfl⟩ := Nat.exists_eq_add_one_of_ne_zero (n := fuel) (by omega)
    have hshape : '"' :: inner ++ ['"'] ++ rest = '"' :: (inner ++ '"' :: rest) := by simp
    rw [hshape, readValue_text, hread]
    rfl
  | array items => reads_array fun d _ => reads d
  | object fields => reads_object fun field hfield =>
    have : sizeOf field.2 < sizeOf fields := by
      have hmem := List.sizeOf_lt_of_mem hfield
      have hfield : sizeOf field = 1 + sizeOf field.1 + sizeOf field.2 := rfl
      omega
    reads field.2

/-- A text that consists of a document is read as its value. -/
theorem parse?_of_written {d : Document} {text : String} (h : d.Written text) :
    parse? text = some d.value := by
  obtain ⟨body, after, hbody, hafter, hlength, hskip⟩ := h.skipBlanks_append fun _ => Spelled.begins
  have hends : Ends after := by simpa using ends_blanks hafter ends_nil
  have hread := reads d body after (2 * text.toList.length + 2) hbody hends (by omega)
  have hstart : skipBlanks text.toList = body ++ after := by simpa using hskip []
  have hrest : skipBlanks after = [] := by
    rw [← List.append_nil after, Json.skipBlanks_append hafter]
    rfl
  simp [parse?, hstart, hread, hrest]

end Document

end Stencil
