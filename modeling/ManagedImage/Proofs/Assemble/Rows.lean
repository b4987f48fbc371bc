/-
Rows as the assembler writes them.

A row is the little-endian bytes of its cells, a table its rows and then zeros
for the rows that were only asked for. What has to be shown is that bytes cut
by the widths they were written with give the cells back: `rowBytes_holds` for
the cells of a row, `tableBytes_row` and `tableBytes_padding` for the rows of a
table. That the reader cuts them by these widths is shown where the layouts are
compared.

`RowsFit` is what makes the pieces equally long: every row has as many cells as
its table has kinds of cells.
-/
import ManagedImage.Proofs.Metadata.Cells
import ManagedImage.Proofs.Assemble.Widths

set_option autoImplicit false

namespace ManagedImage.Assemble.Builder

/-- Every row has a cell of each kind its table asks for. -/
def RowsFit (b : Builder) : Prop :=
  ∀ t, ∀ row ∈ (b.rows.get t).explicit.toList, row.length = (cellKinds t).length

/-- Rows that are added are checked. -/
theorem RowsFit.addRow {b c : Builder} {t : TableId} {cells : List Nat} {n : Nat}
    (hfit : b.RowsFit) (h : b.addRow t cells = .ok (n, c)) : c.RowsFit := by
  rw [Builder.addRow] at h
  split at h
  · cases h
  next hlen =>
  cases h
  intro u row hrow
  rw [TableMap.get_set] at hrow
  split at hrow
  · -- Only the table at hand has a new row.
    next htu =>
    subst htu
    rw [Array.toList_push, List.mem_append, List.mem_singleton] at hrow
    rcases hrow with hrow | rfl
    · exact hfit t row hrow
    · exact Decidable.not_not.mp hlen
  · exact hfit u row hrow

/-- Padding changes the counts alone. -/
theorem explicit_pad (b : Builder) (t u : TableId) (n : Int) :
    ((b.pad t n).rows.get u).explicit = (b.rows.get u).explicit := by
  rw [pad, TableMap.get_set]
  split
  · next htu =>
    subst htu
    rfl
  · rfl

theorem RowsFit.pad {b : Builder} (hfit : b.RowsFit) (t : TableId) (n : Int) :
    (b.pad t n).RowsFit := by
  intro u row hrow
  rw [explicit_pad] at hrow
  exact hfit u row hrow

/-! ## Lengths -/

theorem length_rowBytes (sizes : List Nat) : ∀ cells : List Nat, cells.length = sizes.length →
    (rowBytes sizes cells).length = sizes.sum := by
  induction sizes with
  | nil => intro cells _; simp [rowBytes]
  | cons size rest ih =>
    intro cells hlen
    cases cells with
    | nil => simp at hlen
    | cons v vs =>
      have hrest := ih vs (by simpa using hlen)
      rw [rowBytes] at hrest ⊢
      rw [List.zipWith_cons_cons, List.flatten_cons, List.length_append, length_leBytes,
        hrest, List.sum_cons]

/-- Rows of one length each take that many bytes. -/
theorem length_flatMap_uniform {α : Type} {f : α → List UInt8} {n : Nat} (xs : List α)
    (h : ∀ x ∈ xs, (f x).length = n) : (xs.flatMap f).length = xs.length * n := by
  rw [List.length_flatMap, List.map_eq_replicate_iff.mpr h, List.sum_replicate_nat]

section Table

variable {b : Builder} (t : TableId)

/-- The rows that are written out cell by cell. -/
def writtenRows (b : Builder) (t : TableId) : List (List Nat) :=
  (b.rows.get t).explicit.toList.take (b.rowCount t)

theorem length_rowBytes_written (hfit : b.RowsFit) :
    ∀ row ∈ b.writtenRows t, (rowBytes (b.cellWidths t) row).length = (b.cellWidths t).sum := by
  intro row hrow
  apply length_rowBytes
  rw [length_cellWidths]
  exact hfit t row (List.mem_of_mem_take hrow)

/-- A table takes as many bytes as its rows. -/
theorem length_tableBytes (hfit : b.RowsFit) :
    (b.tableBytes t).length = b.rowCount t * (b.cellWidths t).sum := by
  have hrows := length_flatMap_uniform (b.writtenRows t) (length_rowBytes_written t hfit)
  have hbytes : b.tableBytes t = (b.writtenRows t).flatMap (rowBytes (b.cellWidths t))
      ++ zeroBytes ((b.rowCount t - (b.rows.get t).explicit.size) * (b.cellWidths t).sum) := rfl
  rw [hbytes, List.length_append, hrows, length_zeroBytes, ← Nat.add_mul, writtenRows,
    List.length_take, Array.length_toList]
  congr 1
  omega

end Table

/-! ## Reading a row back -/

/-- The cells of a row lie one behind the other. -/
theorem rowBytes_holds {g : Region} (sizes : List Nat) : ∀ (cells : List Nat) (start : Nat),
    g.Holds start (rowBytes sizes cells) → ∀ (j size v : Nat), sizes[j]? = some size →
      cells[j]? = some v → g.Holds (start + (sizes.take j).sum) (leBytes size v) := by
  induction sizes with
  | nil => intro cells start _ j size v hs; simp at hs
  | cons first rest ih =>
    intro cells start h j size v hs hv
    cases cells with
    | nil => simp at hv
    | cons c cs =>
      rw [rowBytes, List.zipWith_cons_cons, List.flatten_cons, ← rowBytes] at h
      cases j with
      | zero =>
        rw [List.getElem?_cons_zero, Option.some.injEq] at hs hv
        subst hs hv
        exact h.left
      | succ j =>
        rw [List.getElem?_cons_succ] at hs hv
        have hrest := h.right
        rw [length_leBytes] at hrest
        have hj := ih cs (start + first) hrest j size v hs hv
        rw [List.take_succ_cons, List.sum_cons, ← Nat.add_assoc]
        exact hj

section Reading

variable {b : Builder} {tb : Table} {t : TableId}

/-- A written row lies behind the rows before it. -/
theorem tableBytes_row {g : Region} (hfit : b.RowsFit) (h : g.Holds 0 (b.tableBytes t))
    {i : Nat} {row : List Nat} (hrow : (b.writtenRows t)[i]? = some row) :
    g.Holds (i * (b.cellWidths t).sum) (rowBytes (b.cellWidths t) row) := by
  have hwritten : g.Holds 0 ((b.writtenRows t).flatMap (rowBytes (b.cellWidths t))) := h.left
  -- All rows are equally long, so the place of one is a multiple of that.
  have hi := Region.Holds.flatMap (b.writtenRows t) 0 hwritten i row hrow
  have hlt : i < (b.writtenRows t).length := (List.getElem?_eq_some_iff.mp hrow).1
  have hlengths := length_flatMap_uniform ((b.writtenRows t).take i)
    fun y hy => length_rowBytes_written t hfit y (List.mem_of_mem_take hy)
  rw [← List.length_flatMap, hlengths, List.length_take, Nat.min_eq_left (by omega),
    Nat.zero_add] at hi
  exact hi

/-- Behind the written rows everything is zero. -/
theorem tableBytes_padding {g : Region} (hfit : b.RowsFit) (h : g.Holds 0 (b.tableBytes t))
    {i j size : Nat} (hlo : (b.rows.get t).explicit.size ≤ i) (hhi : i < b.rowCount t)
    (hsize : (b.cellWidths t)[j]? = some size) :
    g.Holds (i * (b.cellWidths t).sum + ((b.cellWidths t).take j).sum) (zeroBytes size) := by
  have hrows := length_flatMap_uniform (b.writtenRows t) (length_rowBytes_written t hfit)
  have hlen : (b.writtenRows t).length = (b.rows.get t).explicit.size := by
    rw [writtenRows, List.length_take, Array.length_toList, Nat.min_eq_right (by omega)]
  have hzero : g.Holds (0 + ((b.writtenRows t).flatMap (rowBytes (b.cellWidths t))).length)
      (zeroBytes ((b.rowCount t - (b.rows.get t).explicit.size) * (b.cellWidths t).sum)) := h.right
  rw [hrows, hlen, Nat.zero_add] at hzero
  have hcol := sum_take_add_le hsize
  -- The row asked for is one of the zero rows, and the column lies inside it.
  have hmul : (i - (b.rows.get t).explicit.size + 1) * (b.cellWidths t).sum
      ≤ (b.rowCount t - (b.rows.get t).explicit.size) * (b.cellWidths t).sum :=
    Nat.mul_le_mul_right _ (by omega)
  rw [Nat.succ_mul] at hmul
  have hpart := hzero.zeroBytes_part
    ((i - (b.rows.get t).explicit.size) * (b.cellWidths t).sum + ((b.cellWidths t).take j).sum) size
    (by omega)
  rw [← Nat.add_assoc, ← Nat.add_mul, Nat.add_sub_cancel' hlo] at hpart
  exact hpart

/-- A written cell is read back modulo the range of its column. -/
theorem cell_written (hfit : b.RowsFit) (hl : tb.layout = .ofSizes (b.cellWidths t))
    (hd : tb.data.Is (b.tableBytes t)) {i j size v : Nat} {row : List Nat}
    (hrow : (b.writtenRows t)[i]? = some row) (hsize : (b.cellWidths t)[j]? = some size)
    (hv : row[j]? = some v) : tb.cell (i + 1) j = v % 256 ^ size := by
  have hi := tableBytes_row hfit hd.holds hrow
  rw [Table.cell_eq_wordD hl hsize]
  exact (rowBytes_holds (b.cellWidths t) row _ hi j size v hsize hv).wordD_leBytes

/-- A cell of a row that was only asked for is zero. -/
theorem cell_padding (hfit : b.RowsFit) (hl : tb.layout = .ofSizes (b.cellWidths t))
    (hd : tb.data.Is (b.tableBytes t)) {i j size : Nat}
    (hlo : (b.rows.get t).explicit.size ≤ i) (hhi : i < b.rowCount t)
    (hsize : (b.cellWidths t)[j]? = some size) : tb.cell (i + 1) j = 0 := by
  rw [Table.cell_eq_wordD hl hsize]
  exact (tableBytes_padding hfit hd.holds hlo hhi hsize).wordD_zeroBytes

/-- **A written row read back**: its cells, each modulo the range of its column. -/
theorem cells_written (hfit : b.RowsFit) (hl : tb.layout = .ofSizes (b.cellWidths t))
    (hd : tb.data.Is (b.tableBytes t)) {i : Nat} {row : List Nat}
    (hrow : (b.writtenRows t)[i]? = some row) :
    tb.cells (i + 1) = row.mapIdx fun j v => v % 256 ^ (tb.columnSize (j : Int)) := by
  have hlen : row.length = (b.cellWidths t).length := by
    rw [length_cellWidths]
    exact hfit t row (List.mem_of_mem_take (List.mem_of_getElem? hrow))
  have hcols : tb.layout.columns.size = row.length := by
    rw [Table.size_columns_eq hl, hlen]
  rw [Table.cells, hcols]
  apply List.ext_getElem
  · rw [List.length_map, List.length_range, List.length_mapIdx]
  · intro j hj _
    rw [List.length_map, List.length_range] at hj
    have hsize : (b.cellWidths t)[j]? = some ((b.cellWidths t)[j]) :=
      List.getElem?_eq_getElem (by omega)
    rw [List.getElem_map, List.getElem_range, List.getElem_mapIdx, Table.columnSize_eq hl hsize]
    exact cell_written hfit hl hd hrow hsize (List.getElem?_eq_getElem hj)

/-- **A row that was only asked for reads as zeros.** -/
theorem cells_padding (hfit : b.RowsFit) (hl : tb.layout = .ofSizes (b.cellWidths t))
    (hd : tb.data.Is (b.tableBytes t)) {i : Nat}
    (hlo : (b.rows.get t).explicit.size ≤ i) (hhi : i < b.rowCount t) :
    tb.cells (i + 1) = List.replicate (cellKinds t).length 0 := by
  have hcols : tb.layout.columns.size = (cellKinds t).length := by
    rw [Table.size_columns_eq hl, length_cellWidths]
  rw [Table.cells, hcols]
  apply List.ext_getElem
  · rw [List.length_map, List.length_range, List.length_replicate]
  · intro j hj _
    rw [List.length_map, List.length_range] at hj
    have hjs : j < (b.cellWidths t).length := by rw [length_cellWidths]; exact hj
    have hsize : (b.cellWidths t)[j]? = some ((b.cellWidths t)[j]) :=
      List.getElem?_eq_getElem hjs
    rw [List.getElem_map, List.getElem_range, List.getElem_replicate]
    exact cell_padding hfit hl hd hlo hhi hsize

end Reading

end ManagedImage.Assemble.Builder
