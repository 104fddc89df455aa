import Mathlib.Algebra.Order.BigOperators.GroupWithZero.List
import Mathlib.Data.List.Forall2
import Stencil.C.Braces
import Stencil.C.Initializer
import Stencil.Proofs.RowMajor

/-!
# Initializers of arrays

The values of an array are cut into rows, dimension by dimension, and each row is put in braces. The
text is read back as a tree that has the shape of the array, and the value at an index of the tree is the
value at the row-major index of the list.
-/

namespace Stencil.C

/-! ## Rows -/

section

variable {α : Type} {size : Nat}

/-- A list of the length of so many rows falls into them. -/
theorem exists_rows {count : Nat} {values : List α} (h : values.length = count * size) :
    ∃ rows : List (List α), rows.length = count ∧ (∀ row ∈ rows, row.length = size) ∧ rows.flatten = values := by
  induction count generalizing values with
  | zero =>
    rw [Nat.zero_mul, List.length_eq_zero_iff] at h
    exact ⟨[], rfl, nofun, h.symm⟩
  | succ count ih =>
    rw [Nat.succ_mul] at h
    have hrest : (values.drop size).length = count * size := by
      rw [List.length_drop]
      omega
    obtain ⟨rows, hcount, hsize, hflatten⟩ := ih hrest
    refine ⟨values.take size :: rows, by simp [hcount], List.forall_mem_cons.2 ⟨?_, hsize⟩, ?_⟩
    · rw [List.length_take]
      omega
    · rw [List.flatten_cons, hflatten, List.take_append_drop]

/-- Cutting finds the rows again, if there is something in each of them. -/
theorem chunks_flatten {rows : List (List α)} (hsize : 0 < size) (h : ∀ row ∈ rows, row.length = size) :
    chunks size rows.flatten = rows := by
  have htake : ∀ count, rows.length ≤ count → takeChunks size count rows.flatten = rows := by
    induction rows with
    | nil => rintro ⟨⟩ _ <;> rfl
    | cons row rows ih =>
      rw [List.forall_mem_cons] at h
      obtain ⟨hrow, hrows⟩ := h
      rintro (_ | count) hcount
      · cases hcount
      · obtain ⟨a, as, rfl⟩ := List.exists_cons_of_length_pos (hrow ▸ hsize)
        have hcut : takeChunks size (count + 1) ((a :: as) ++ rows.flatten) =
            ((a :: as) ++ rows.flatten).take size ::
              takeChunks size count (((a :: as) ++ rows.flatten).drop size) := rfl
        rw [List.flatten_cons, hcut, List.take_left' hrow, List.drop_left' hrow, ih hrows]
        exact Nat.le_of_succ_le_succ hcount
  refine htake _ ?_
  have hlength : rows.flatten.length = rows.length * size := by
    rw [List.length_flatten, List.eq_replicate_of_mem (l := rows.map List.length) (a := size) (by simpa using h)]
    simp
  rw [hlength]
  exact Nat.le_mul_of_pos_right _ hsize

/-- The element of a row is found behind the rows before it. -/
theorem getElem?_flatten_rows {rows : List (List α)} (h : ∀ row ∈ rows, row.length = size) {i k : Nat}
    (hk : k < size) : rows.flatten[i * size + k]? = rows[i]?.bind fun row => row[k]? := by
  induction rows generalizing i with
  | nil => simp
  | cons row rows ih =>
    rw [List.forall_mem_cons] at h
    obtain ⟨hrow, hrows⟩ := h
    cases i with
    | zero => simp [List.getElem?_append_left (hrow.symm ▸ hk)]
    | succ i =>
      have hindex : (i + 1) * size + k = row.length + (i * size + k) := by
        rw [hrow, Nat.succ_mul]
        omega
      rw [List.flatten_cons, hindex, List.getElem?_append_right (Nat.le_add_right _ _), Nat.add_sub_cancel_left,
        ih hrows, List.getElem?_cons_succ]

end

/-! ## Texts that stand for trees -/

/-- The text is not empty, and nothing in it ends a value or begins another one. -/
def IsValueText (text : String) : Prop := text ≠ "" ∧ ∀ c ∈ text.toList, c ∉ [' ', '{', '}', ',']

instance (text : String) : Decidable (IsValueText text) :=
  have : Decidable (∀ c ∈ text.toList, c ∉ [' ', '{', '}', ',']) := List.decidableBAll _ _
  inferInstanceAs (Decidable (_ ∧ _))

namespace BraceTree

/-- Behind the text the tree is complete, whatever groups are open. -/
def Reads (text : String) (t : BraceTree) : Prop :=
  ∀ opened, ∃ item, text.toList.foldlM Reading.step? ⟨opened, .absent⟩ = some ⟨opened, item⟩ ∧
    item.tree? = some t

theorem Reads.ofText? {text : String} {t : BraceTree} (h : Reads text t) : ofText? text = some t := by
  obtain ⟨item, hread, htree⟩ := h []
  rw [BraceTree.ofText?, hread]
  exact htree

theorem step?_char {c : Char} (h : c ∉ [' ', '{', '}', ',']) (r : Reading) :
    r.step? c = (r.item.char? c).map fun item => { r with item } := by
  simp only [List.mem_cons, List.not_mem_nil, or_false, not_or] at h
  obtain ⟨hblank, hopen, hclose, hcomma⟩ := h
  unfold Reading.step?
  split <;> first | contradiction | rfl

theorem foldlM_word {cs : List Char} (h : ∀ c ∈ cs, c ∉ [' ', '{', '}', ',']) (opened : List (List BraceTree))
    (text : List Char) :
    cs.foldlM Reading.step? ⟨opened, .word text⟩ = some ⟨opened, .word (text ++ cs)⟩ := by
  induction cs generalizing text with
  | nil => simp
  | cons c cs ih =>
    rw [List.forall_mem_cons] at h
    have hrest := ih h.2 (text ++ [c])
    rw [List.append_assoc] at hrest
    rw [List.foldlM_cons, step?_char h.1]
    exact hrest

theorem reads_value {text : String} (h : IsValueText text) : Reads text (value text) := by
  intro opened
  obtain ⟨hne, hplain⟩ := h
  obtain ⟨c, cs, hchars⟩ := List.exists_cons_of_ne_nil fun hnil => hne (String.toList_eq_nil_iff.1 hnil)
  rw [hchars, List.forall_mem_cons] at hplain
  refine ⟨.word text.toList, ?_, by simp [Item.tree?]⟩
  rw [hchars, List.foldlM_cons, step?_char hplain.1]
  exact foldlM_word hplain.2 opened [c]

/-- Members with commas between them, up to the end of their group. -/
theorem foldlM_members {texts : List String} {ts : List BraceTree} (h : List.Forall₂ Reads texts ts)
    (members : List BraceTree) (opened : List (List BraceTree)) :
    ((commaSeparated texts).toList ++ ['}']).foldlM Reading.step? ⟨members :: opened, .absent⟩ =
      some ⟨opened, .complete (group (members ++ ts))⟩ := by
  -- With each member the group grows; the last one joins it at the closing brace.
  induction h generalizing members with
  | nil => rfl
  | @cons text t texts ts hread hreads ih =>
    obtain ⟨item, hitem, htree⟩ := hread (members :: opened)
    cases hreads with
    | nil =>
      have htext : commaSeparated [text] = text := String.intercalate_singleton
      rw [htext, List.foldlM_append, hitem]
      simp [Reading.step?, htree]
    | cons =>
      simp only [commaSeparated, String.intercalate_cons_cons, String.toList_append, List.append_assoc] at ih ⊢
      rw [List.foldlM_append, hitem]
      simp only [Option.bind_eq_bind, Option.bind_some]
      have hcomma : (", ").toList.foldlM Reading.step? ⟨members :: opened, item⟩ =
          some ⟨(members ++ [t]) :: opened, .absent⟩ := by
        simp [Reading.step?, htree, Item.blank]
      rw [List.foldlM_append, hcomma]
      simpa using ih (members ++ [t])

theorem reads_group {texts : List String} {ts : List BraceTree} (h : List.Forall₂ Reads texts ts) :
    Reads ("\x7b" ++ commaSeparated texts ++ "\x7d") (group ts) := by
  intro opened
  have htext : ("\x7b" ++ commaSeparated texts ++ "\x7d").toList =
      '{' :: ((commaSeparated texts).toList ++ ['}']) := by simp
  refine ⟨.complete (group ts), ?_, rfl⟩
  rw [htext]
  exact foldlM_members h [] opened

/-! ## The tree of an array -/

theorem leavesOf_eq_flatMap (ts : List BraceTree) : leavesOf ts = ts.flatMap leaves := by
  induction ts with
  | nil => rfl
  | cons t ts ih => rw [leavesOf, ih, List.flatMap_cons]

theorem depthOf_eq {ts : List BraceTree} {n : Nat} (hne : ts ≠ []) (h : ∀ t ∈ ts, t.depth = n) : depthOf ts = n := by
  induction ts with
  | nil => exact absurd rfl hne
  | cons t ts ih =>
    rw [List.forall_mem_cons] at h
    rw [depthOf, h.1]
    cases ts with
    | nil => exact Nat.max_zero n
    | cons next ts => rw [ih (List.cons_ne_nil _ _) h.2, Nat.max_self]

theorem HasShape.depth_eq {dims : List Nat} {t : BraceTree} (h : t.HasShape dims) (hdims : ∀ d ∈ dims, 0 < d) :
    t.depth = dims.length := by
  induction dims generalizing t with
  | nil =>
    cases t with
    | value text => rfl
    | group members => exact h.elim
  | cons size sizes ih =>
    rw [List.forall_mem_cons] at hdims
    cases t with
    | value text => exact h.elim
    | group members =>
      obtain ⟨rfl, hmembers⟩ := h
      exact congrArg (· + 1) (depthOf_eq (List.ne_nil_of_length_pos hdims.1) fun t ht => ih (hmembers t ht) hdims.2)

/-- A tree has one shape. -/
theorem HasShape.unique {dims dims' : List Nat} {t : BraceTree} (h : t.HasShape dims) (h' : t.HasShape dims')
    (hdims : ∀ d ∈ dims, 0 < d) : dims' = dims := by
  induction dims generalizing t dims' with
  | nil =>
    cases t with
    | value text =>
      cases dims' with
      | nil => rfl
      | cons size sizes => exact h'.elim
    | group members => exact h.elim
  | cons size sizes ih =>
    rw [List.forall_mem_cons] at hdims
    cases t with
    | value text => exact h.elim
    | group members =>
      cases dims' with
      | nil => exact h'.elim
      | cons size' sizes' =>
        obtain ⟨rfl, hmembers⟩ := h
        obtain ⟨rfl, hmembers'⟩ := h'
        -- Any member has both of the inner shapes.
        obtain ⟨t, ts, rfl⟩ := List.exists_cons_of_length_pos hdims.1
        rw [ih (hmembers t List.mem_cons_self) (hmembers' t List.mem_cons_self) hdims.2]

/-- The tree that the values of an array make up. -/
def ofValues : List Nat → List String → BraceTree
  | [], values => value (values.headD "0")
  | _ :: inner, values => group ((chunks (max 1 (inner.foldr (· * ·) 1)) values).map (ofValues inner))

end BraceTree

/-- The texts are those of the values of an array, none of whose dimensions is zero. -/
structure Fills (dims : List Nat) (values : List String) : Prop where
  pos : ∀ d ∈ dims, 0 < d
  length_eq : values.length = dims.prod
  isValueText : ∀ v ∈ values, IsValueText v

theorem Fills.eq_singleton {values : List String} (h : Fills [] values) : ∃ v, values = [v] ∧ IsValueText v := by
  obtain ⟨v, rfl⟩ := List.length_eq_one_iff.1 h.length_eq
  exact ⟨v, rfl, h.isValueText v List.mem_cons_self⟩

/-- The values of an array are those of its rows, and these are what the values are cut into. -/
theorem Fills.exists_rows {size : Nat} {sizes : List Nat} {values : List String} (h : Fills (size :: sizes) values) :
    ∃ rows : List (List String), rows.length = size ∧ rows.flatten = values ∧
      (∀ row ∈ rows, row.length = sizes.prod) ∧ (∀ row ∈ rows, Fills sizes row) ∧
        chunks (max 1 (sizes.foldr (· * ·) 1)) values = rows := by
  obtain ⟨hpos, hlength, htexts⟩ := h
  rw [List.forall_mem_cons] at hpos
  rw [List.prod_cons] at hlength
  obtain ⟨rows, hcount, hsize, rfl⟩ := C.exists_rows hlength
  have hprod : 0 < sizes.prod := List.prod_pos fun d hd => hpos.2 d hd
  have hstride : max 1 (sizes.foldr (· * ·) 1) = sizes.prod := Nat.max_eq_right hprod
  refine ⟨rows, hcount, rfl, hsize, fun row hrow => ⟨hpos.2, hsize row hrow, ?_⟩, ?_⟩
  · exact fun v hv => htexts v (List.mem_flatten_of_mem hrow hv)
  · rw [hstride]
    exact chunks_flatten hprod hsize

namespace BraceTree

variable {dims : List Nat} {values : List String}

theorem reads_ofValues (h : Fills dims values) : Reads (nestedInitializer dims values) (ofValues dims values) := by
  induction dims generalizing values with
  | nil =>
    obtain ⟨v, rfl, hv⟩ := h.eq_singleton
    exact reads_value hv
  | cons size sizes ih =>
    obtain ⟨rows, -, -, -, hrows, hchunks⟩ := h.exists_rows
    rw [nestedInitializer, ofValues, hchunks]
    refine reads_group (List.forall₂_map_left_iff.2 (List.forall₂_map_right_iff.2 ?_))
    exact List.forall₂_same.2 fun row hrow => ih (hrows row hrow)

theorem hasShape_ofValues (h : Fills dims values) : (ofValues dims values).HasShape dims := by
  induction dims generalizing values with
  | nil => trivial
  | cons size sizes ih =>
    obtain ⟨rows, hcount, -, -, hrows, hchunks⟩ := h.exists_rows
    rw [ofValues, hchunks]
    exact ⟨(List.length_map _).trans hcount, List.forall_mem_map.2 fun row hrow => ih (hrows row hrow)⟩

theorem leaves_ofValues (h : Fills dims values) : (ofValues dims values).leaves = values := by
  induction dims generalizing values with
  | nil =>
    obtain ⟨v, rfl, -⟩ := h.eq_singleton
    rfl
  | cons size sizes ih =>
    obtain ⟨rows, -, hflatten, -, hrows, hchunks⟩ := h.exists_rows
    rw [ofValues, hchunks, leaves, leavesOf_eq_flatMap, List.flatMap_map, ← hflatten, List.flatten_eq_flatMap]
    exact List.flatMap_congr fun row hrow => ih (hrows row hrow)

end BraceTree

theorem lt_prod_of_flatIndex? {dims indices : List Nat} {k : Nat} (h : flatIndex? dims indices = some k) :
    k < dims.prod := by
  induction dims generalizing indices k with
  | nil =>
    cases indices with
    | nil =>
      obtain rfl := Option.some.inj h
      exact Nat.one_pos
    | cons i is => cases h
  | cons size sizes ih =>
    cases indices with
    | nil => cases h
    | cons i is =>
      rw [flatIndex?] at h
      split at h
      next hi =>
        obtain ⟨j, hj, rfl⟩ := Option.map_eq_some_iff.1 h
        rw [List.prod_cons]
        exact mul_add_lt_mul hi (ih hj)
      next => cases h

/-- The value at an index is the one at the row-major index. -/
theorem BraceTree.element?_ofValues {dims : List Nat} {values : List String} (h : Fills dims values)
    (indices : List Nat) :
    (ofValues dims values).element? indices = (flatIndex? dims indices).bind (values[·]?) := by
  induction dims generalizing values indices with
  | nil =>
    obtain ⟨v, rfl, -⟩ := h.eq_singleton
    cases indices <;> rfl
  | cons size sizes ih =>
    obtain ⟨rows, hcount, hflatten, hsize, hrows, hchunks⟩ := h.exists_rows
    cases indices with
    | nil => rfl
    | cons i is =>
      rw [ofValues, hchunks, element?, List.getElem?_map, flatIndex?]
      split
      next hi =>
        obtain ⟨row, hrow⟩ : ∃ row, rows[i]? = some row := ⟨_, List.getElem?_eq_getElem (hcount ▸ hi)⟩
        rw [hrow, Option.map_some, Option.bind_some, ih (hrows row (List.mem_of_getElem? hrow)) is, Option.bind_map,
          ← hflatten]
        refine Option.bind_congr fun k hk => ?_
        have hlt : k < sizes.prod := lt_prod_of_flatIndex? hk
        have hvalue := getElem?_flatten_rows hsize hlt (i := i)
        rw [hrow, Option.bind_some] at hvalue
        exact hvalue.symm
      next hi =>
        rw [List.getElem?_eq_none (by omega)]
        rfl

/-- The text of an initializer is read back as a tree that has the shape of the array and holds its values
from left to right, each at its row-major index. It is the text of no other array: neither of other values
nor of other dimensions. -/
theorem ofText?_nestedInitializer {dims : List Nat} {values : List String} (h : Fills dims values) :
    (∃ t, BraceTree.ofText? (nestedInitializer dims values) = some t ∧ t.depth = dims.length ∧
        t.HasShape dims ∧ t.leaves = values ∧
          ∀ indices, t.element? indices = (flatIndex? dims indices).bind (values[·]?)) ∧
      ∀ dims' values', Fills dims' values' →
        nestedInitializer dims' values' = nestedInitializer dims values → dims' = dims ∧ values' = values := by
  have hread := (BraceTree.reads_ofValues h).ofText?
  have hshape := BraceTree.hasShape_ofValues h
  refine ⟨⟨_, hread, hshape.depth_eq h.pos, hshape, BraceTree.leaves_ofValues h, BraceTree.element?_ofValues h⟩, ?_⟩
  intro dims' values' h' htext
  have hread' := (BraceTree.reads_ofValues h').ofText?
  rw [htext, hread] at hread'
  have hsame := Option.some.inj hread'
  constructor
  · exact hshape.unique (hsame ▸ BraceTree.hasShape_ofValues h') h.pos
  · rw [← BraceTree.leaves_ofValues h, hsame, BraceTree.leaves_ofValues h']

/-- The values of an array of two rows. -/
def twoRows : List String := ["1", "-2", "0.5f", "4", "5", "1e-7f"]

def twoRowsText : String := "\x7b\x7b1, -2, 0.5f\x7d, \x7b4, 5, 1e-7f\x7d\x7d"

theorem ofText?_nestedInitializer_twoRows :
    Fills [2, 3] twoRows ∧
      nestedInitializer [2, 3] twoRows = twoRowsText ∧
        (∃ t, BraceTree.ofText? twoRowsText = some t ∧ t.depth = 2 ∧
          t.leaves = twoRows ∧ t.element? [1, 2] = some "1e-7f") ∧
        ¬ ∃ values', Fills [6] values' ∧
          nestedInitializer [6] values' = twoRowsText := by
  have hfills : Fills [2, 3] twoRows := ⟨by decide, by decide, by decide⟩
  have htext : nestedInitializer [2, 3] twoRows = twoRowsText := by decide
  obtain ⟨⟨t, hread, hdepth, -, hleaves, helement⟩, hunique⟩ := ofText?_nestedInitializer hfills
  rw [htext] at hread hunique
  refine ⟨hfills, htext, ⟨t, hread, hdepth, hleaves, helement [1, 2]⟩, ?_⟩
  rintro ⟨values', hfills', htext'⟩
  cases (hunique [6] values' hfills' htext').1

end Stencil.C
