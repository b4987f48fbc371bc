/-
Cells of a table in terms of the bytes behind it.

A layout is a list of widths; the offset of a column is the sum of the widths
before it. `Table.cell_eq_wordD` says this of a cell: it is a word of the bytes
behind the table, at the rows before it and the columns before it.

The first section has the few facts about the list of tables and about maps
over it that every argument over all tables needs.
-/
import ManagedImage.Proofs.Bytes.Holding
import ManagedImage.Metadata.Table
import Mathlib.Algebra.Order.BigOperators.Group.List

set_option autoImplicit false

namespace ManagedImage

/-! ## All tables -/

namespace TableId

/-- The table with number `n` is the `n`-th in the list. -/
theorem getElem?_all (t : TableId) : all.toList[t.code]? = some t := by cases t <;> rfl

theorem mem_all (t : TableId) : t ∈ all.toList := List.mem_of_getElem? t.getElem?_all

theorem map_code_all : all.toList.map code = List.range 45 := by decide

end TableId

/-- Two maps with the same value at every table are equal. -/
theorem TableMap.ext_get {α : Type} {m n : TableMap α} (h : ∀ t, m.get t = n.get t) : m = n := by
  cases m with | mk mv =>
  cases n with | mk nv =>
  congr 1
  apply Vector.ext
  intro i hi
  have ht := h (TableId.ofIndex ⟨i, hi⟩)
  simp only [TableMap.get, TableId.index_ofIndex] at ht
  exact ht

/-! ## Offsets of columns -/

theorem Layout.getElem?_offsets (sizes : List Nat) : ∀ (at_ j : Nat),
    (offsets at_ sizes)[j]? = sizes[j]?.map fun size => (at_ + (sizes.take j).sum, size) := by
  induction sizes with
  | nil => intro at_ j; simp [offsets]
  | cons size rest ih =>
    intro at_ j
    cases j with
    | zero => simp [offsets]
    | succ j =>
      rw [offsets, List.getElem?_cons_succ, List.getElem?_cons_succ, ih, List.take_succ_cons,
        List.sum_cons]
      simp only [Nat.add_assoc]

theorem Layout.length_offsets (sizes : List Nat) : ∀ at_ : Nat,
    (offsets at_ sizes).length = sizes.length := by
  induction sizes with
  | nil => intro _; rfl
  | cons size rest ih => intro at_; rw [offsets, List.length_cons, List.length_cons, ih]

theorem Layout.size_columns_ofSizes (sizes : List Nat) :
    (ofSizes sizes).columns.size = sizes.length := by
  rw [ofSizes, List.size_toArray, length_offsets]

/-- A column and what is before it fit into a row. -/
theorem sum_take_add_le {sizes : List Nat} {j size : Nat} (h : sizes[j]? = some size) :
    (sizes.take j).sum + size ≤ sizes.sum := by
  obtain ⟨hj, rfl⟩ := List.getElem?_eq_some_iff.mp h
  rw [← List.sum_take_succ sizes j hj, ← List.sum_take_add_sum_drop sizes (j + 1)]
  exact Nat.le_add_right _ _

theorem Widths.length_sizes (w : Widths) (t : TableId) :
    (w.sizes t).length = t.columns.length := by
  rw [sizes, List.length_map]

namespace Table

variable {t : Table} {sizes : List Nat}

theorem size_columns_eq (hl : t.layout = .ofSizes sizes) :
    t.layout.columns.size = sizes.length := by
  rw [hl, Layout.size_columns_ofSizes]

/-- A row is as long as its columns. -/
theorem rowSize_eq_sum (hl : t.layout = .ofSizes sizes) : t.layout.rowSize = sizes.sum := by
  rw [hl]
  rfl

/-- A column of a layout starts behind the widths before it. -/
theorem getElem?_columns (hl : t.layout = .ofSizes sizes) {j size : Nat}
    (hj : sizes[j]? = some size) :
    t.layout.columns[j]? = some ((sizes.take j).sum, size) := by
  rw [hl, Layout.ofSizes, List.getElem?_toArray, Layout.getElem?_offsets, hj, Option.map_some,
    Nat.zero_add]

/-- A cell is the word at the offset of its row plus the widths before its column. -/
theorem cell_eq_wordD (hl : t.layout = .ofSizes sizes) {i j size : Nat}
    (hj : sizes[j]? = some size) :
    t.cell (i + 1) j = t.data.wordD size (i * sizes.sum + (sizes.take j).sum) := by
  rw [cell, if_neg (by omega), getElem?_columns hl hj, rowSize_eq_sum hl, Nat.add_sub_cancel]

theorem columnSize_eq (hl : t.layout = .ofSizes sizes) {j size : Nat} (hj : sizes[j]? = some size) :
    t.columnSize (j : Int) = size := by
  rw [columnSize, if_neg (by omega), Int.toNat_natCast, Array.getD_eq_getD_getElem?,
    getElem?_columns hl hj]
  rfl

end Table

end ManagedImage
