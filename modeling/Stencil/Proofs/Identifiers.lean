import Stencil.Proofs.DistinctNames
import Stencil.Proofs.Tokens

/-!
# Legal identifiers

Every C name of a file has the form of an identifier. A name with a mark in front is also
none of the words that C or the file itself reserves, so that only the parameters of
`entry`, which keep their names, can be called like one.
-/

namespace Stencil

namespace C

/-! ## Identifiers -/

theorem isNameChar_replaceChar (c : Char) : isNameChar (replaceChar c) := by
  unfold replaceChar
  split
  next h => simp [isNameChar, h]
  next => decide

theorem isNameChar_identifierChars (name : List Char) : ∀ c ∈ identifierChars name, isNameChar c := by
  have hreplaced : ∀ c ∈ name.map replaceChar, isNameChar c := by
    intro c hc
    obtain ⟨d, -, rfl⟩ := List.mem_map.1 hc
    exact isNameChar_replaceChar d
  unfold identifierChars
  dsimp only
  split
  next => exact hreplaced
  next => exact List.forall_mem_cons.2 ⟨by decide, hreplaced⟩

theorem startsIdentifier_identifierChars (name : List Char) : startsIdentifier (identifierChars name) := by
  unfold identifierChars
  dsimp only
  split
  next h => exact h
  next => rfl

theorem isName_of_chars {name : String} (hstart : startsIdentifier name.toList)
    (hall : ∀ c ∈ name.toList, isNameChar c) : isName name := by
  unfold isName
  split
  next hnil =>
    rw [hnil] at hstart
    cases hstart
  next c rest hchars =>
    rw [hchars] at hstart hall
    have hrest : rest.all isNameChar := List.all_eq_true.2 fun d hd => hall d (List.mem_cons_of_mem c hd)
    have hdigit : (!c.isDigit) = true := hstart
    simp only [hall c List.mem_cons_self, hdigit, hrest, Bool.and_self]

theorem isName_identifier (name : String) : isName (identifier name) := by
  apply isName_of_chars
  · simpa only [identifier, String.toList_ofList] using startsIdentifier_identifierChars name.toList
  · simpa only [identifier, String.toList_ofList] using isNameChar_identifierChars name.toList

/-- A mark in front of an identifier. -/
theorem isName_append {mark name : String} (hmark : isName mark) (hname : isName name) : isName (mark ++ name) := by
  have hchars := isNameChar_of_mem hmark
  unfold isName at hmark
  split at hmark
  next => cases hmark
  next c rest heq =>
    simp only [Bool.and_eq_true] at hmark
    apply isName_of_chars
    · rw [String.toList_append, heq]
      exact hmark.1.2
    · rw [String.toList_append]
      exact List.forall_mem_append.2 ⟨hchars, isNameChar_of_mem hname⟩

/-- An underscore is put in front only of what does not begin an identifier. -/
theorem identifier_eq_iff {name word : String} (hword : startsIdentifier word.toList)
    (htail : word.toList.head? = some '_' → startsIdentifier word.toList.tail) :
    identifier name = word ↔ name.map replaceChar = word := by
  simp only [← String.toList_inj, identifier, String.toList_ofList, String.toList_map]
  unfold identifierChars
  dsimp only
  split
  next => exact Iff.rfl
  next hstart =>
    constructor
    · intro h
      rw [← h] at htail
      exact absurd (htail rfl) hstart
    · intro h
      rw [h] at hstart
      exact absurd hword hstart

/-! ## Reserved words -/

/-- The keywords of C, up to its revision of 2023. -/
def keywords : List String :=
  ["auto", "break", "case", "char", "const", "continue", "default", "do", "double", "else", "enum",
   "extern", "float", "for", "goto", "if", "int", "long", "register", "return", "short", "signed",
   "sizeof", "static", "struct", "switch", "typedef", "union", "unsigned", "void", "volatile", "while",
   "inline", "restrict", "_Bool", "_Complex", "_Imaginary",
   "_Alignas", "_Alignof", "_Atomic", "_Generic", "_Noreturn", "_Static_assert", "_Thread_local",
   "alignas", "alignof", "bool", "constexpr", "false", "nullptr", "static_assert", "thread_local",
   "true", "typeof", "typeof_unqual", "_BitInt", "_Decimal32", "_Decimal64", "_Decimal128"]

/-- The keywords, and the types of the elements and of the counters. -/
def reservedWords : List String := keywords ++ ElementType.all.map typeName ++ ["uint32_t"]

theorem startsIdentifier_reserved : ∀ word ∈ reservedWords,
    startsIdentifier word.toList ∧ (word.toList.head? = some '_' → startsIdentifier word.toList.tail) := by
  decide +kernel

/-- No reserved word begins with the mark of the arrays or with that of the functions. -/
theorem not_isPrefix_reserved : ∀ word ∈ reservedWords,
    ¬ "tensor_".toList <+: word.toList ∧ ¬ "node_".toList <+: word.toList := by
  decide +kernel

/-- A name becomes a reserved word if it reads like one, character by character. -/
theorem identifier_mem_reserved {name : String} :
    identifier name ∈ reservedWords ↔ name.map replaceChar ∈ reservedWords := by
  constructor
  · intro h
    obtain ⟨hword, htail⟩ := startsIdentifier_reserved _ h
    have hsame : name.map replaceChar = identifier name := (identifier_eq_iff hword htail).1 rfl
    rwa [hsame]
  · intro h
    obtain ⟨hword, htail⟩ := startsIdentifier_reserved _ h
    have hsame : identifier name = name.map replaceChar := (identifier_eq_iff hword htail).2 rfl
    rwa [hsame]

theorem tensor_append_notMem_reserved (name : String) : "tensor_" ++ name ∉ reservedWords := by
  intro h
  apply (not_isPrefix_reserved _ h).1
  rw [String.toList_append]
  exact List.prefix_append _ _

theorem node_append_notMem_reserved (name : String) : "node_" ++ name ∉ reservedWords := by
  intro h
  apply (not_isPrefix_reserved _ h).2
  rw [String.toList_append]
  exact List.prefix_append _ _

end C

/-! ## Names of a file -/

theorem Routine.isName_functionName (r : Routine) : C.isName r.functionName :=
  C.isName_append (by decide) (C.isName_identifier r.name)

namespace RegisteredTensor

theorem isName_cName (t : RegisteredTensor) : C.isName t.cName := by
  have hname : C.isName (C.identifier t.tensor.name) := C.isName_identifier t.tensor.name
  unfold cName
  split
  · exact hname
  · exact hname
  · exact C.isName_append (by decide) hname
  · exact C.isName_append (by decide) hname

/-- Only what keeps its name can be called like a reserved word. -/
theorem cName_mem_reserved {t : RegisteredTensor} :
    t.cName ∈ C.reservedWords ↔
      (t.role = .input ∨ t.role = .output) ∧ t.tensor.name.map C.replaceChar ∈ C.reservedWords := by
  unfold cName
  split
  next hrole => simp [hrole, C.identifier_mem_reserved]
  next hrole => simp [hrole, C.identifier_mem_reserved]
  next hrole => simp [hrole, C.tensor_append_notMem_reserved]
  next hrole => simp [hrole, C.tensor_append_notMem_reserved]

end RegisteredTensor

namespace Graph

/-- The legal C names of a file. -/
structure LegalNames (m : Model) (g : Graph) : Prop where
  functions : ∀ r ∈ g.routines, C.isName r.functionName ∧ r.functionName ∉ C.reservedWords
  tensors : ∀ t ∈ g.registry.tensors, C.isName t.cName
  /-- The exceptions are inputs and outputs of the model whose names read like reserved words. -/
  reserved_iff : ∀ t ∈ g.registry.tensors, t.cName ∈ C.reservedWords ↔
    t.tensor.name ∈ m.inputs.map Tensor.name ++ m.outputs ∧
      t.tensor.name.map C.replaceChar ∈ C.reservedWords

variable {m : Model} {g : Graph}

/-- The parameters of `entry` are known by their names. -/
theorem Built.mem_parameters_iff_name (h : g.Built m) {t : RegisteredTensor} (ht : t ∈ g.registry.tensors) :
    t ∈ g.parameters ↔ t.tensor.name ∈ m.inputs.map Tensor.name ++ m.outputs := by
  rw [← h.parameters_names]
  constructor
  · intro hparameter
    exact List.mem_map_of_mem hparameter
  · intro hname
    obtain ⟨u, hu, hsame⟩ := List.mem_map.1 hname
    have hmem : u ∈ g.registry.tensors := (h.mem_parameters.1 hu).1
    rwa [← h.indexed.eq_of_name_eq hmem ht hsame]

/-- The C names of a graph that can be built are identifiers, and none of them is reserved unless
an input or an output of the model has such a name. -/
theorem build_legalNames {options : Options} (h : Graph.build m options = .ok g) : g.LegalNames m := by
  have hbuilt := Graph.build_eq_ok h
  refine ⟨?_, fun t _ => t.isName_cName, ?_⟩
  · intro r _
    exact ⟨r.isName_functionName, C.node_append_notMem_reserved _⟩
  · intro t ht
    have hparameter := hbuilt.mem_parameters (t := t)
    rw [RegisteredTensor.cName_mem_reserved, ← hbuilt.mem_parameters_iff_name ht, hparameter, and_iff_right ht]

end Graph

/-- An input, a constant, a node and an output that read like reserved words. -/
def keywordNames : Model where
  inputs := [⟨"float", .uint8, [1, 1, 1, 1]⟩]
  initializers := [⟨⟨"if", .int8, [1, 1, 1, 1]⟩, .ints [3]⟩]
  nodes := [{ operatorName := "ConvInteger", name := "while", inputs := ["float", "if"], outputs := ["int8-t"] }]
  outputs := ["int8-t"]

theorem legalNames_keywordNames :
    ∃ g, Graph.build keywordNames ⟨false⟩ = .ok g ∧ g.LegalNames keywordNames := by
  obtain ⟨g, hg⟩ : ∃ g, Graph.build keywordNames ⟨false⟩ = .ok g := ⟨_, rfl⟩
  exact ⟨g, hg, Graph.build_legalNames hg⟩

/-- The constant and the node are marked, but the two parameters have the names of types. -/
theorem keywordNames_reserved :
    ∃ g, Graph.build keywordNames ⟨false⟩ = .ok g ∧
      g.registry.tensors.map RegisteredTensor.cName = ["float", "tensor_if", "int8_t"] ∧
      g.routines.map Routine.functionName = ["node_while"] ∧
      "float" ∈ C.reservedWords ∧ "int8_t" ∈ C.reservedWords := by
  refine ⟨_, rfl, ?_, ?_, ?_, ?_⟩ <;> decide +kernel

end Stencil
