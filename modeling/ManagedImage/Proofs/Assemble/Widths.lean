/-
The assembler and the reader lay rows out alike.

Each has a list of its own of what a row holds and rules of its own for how wide
that is. `cellKinds_eq` compares the lists table by table, `cellWidth_ofColumn`
the rules kind by kind. A coded index is the case with an argument: the
assembler passes over the tags without a table and looks the others up by
number, the reader has a list of tables, so both look at the same row counts
(`any_numbers_eq`).
-/
import ManagedImage.Assemble.Builder
import ManagedImage.Metadata.Schema
import ManagedImage.Proofs.Metadata.CodedIndex

set_option autoImplicit false

namespace ManagedImage.Assemble

/-- What the assembler calls a column of the reader. -/
def CellKind.ofColumn : ColumnKind → CellKind
  | .u8 => .fixed 1
  | .u16 => .fixed 2
  | .u32 => .fixed 4
  | .string => .string
  | .guid => .guid
  | .blob => .blob
  | .table t => .table t.code
  | .coded k => .coded k

/-- Both have the same cells in the rows of every table. -/
theorem cellKinds_eq (t : TableId) :
    cellKinds t = t.columns.map fun c => .ofColumn c.kind := by cases t <;> rfl

@[simp] theorem length_cellKinds (t : TableId) : (cellKinds t).length = t.columns.length := by
  rw [cellKinds_eq, List.length_map]

namespace Builder

variable (b : Builder)

/-- What decides the widths of columns in the reader, with the counts and flags of the builder. -/
def widths : Widths := ⟨b.stringWidth, b.guidWidth, b.blobWidth, TableMap.ofFn b.rowCount⟩

@[simp] theorem rowsNumbered_code (t : TableId) : b.rowsNumbered t.code = b.rowCount t := by
  rw [rowsNumbered, TableId.ofCode?_code]
  rfl

/-- The tags that stand for a table are looked up by its number, the others are passed over. -/
theorem any_numbers_eq (k : CodedKind) (limit : Nat) :
    ((tagLayout k).numbers.any fun n => n ≠ noTable && limit ≤ b.rowsNumbered n.toNat)
      = k.tables.any fun t => limit ≤ b.rowCount t := by
  rw [CodedKind.tagLayout_eq, CodedKind.tables, List.any_map, List.any_filterMap]
  congr 1
  funext slot
  cases slot with
  | none => rfl
  | some t =>
    have htable : slotNumber (some t) ≠ noTable := fun h =>
      Option.some_ne_none t (CodedKind.slotNumber_inj.mp h)
    have hnumber : (slotNumber (some t)).toNat = t.code := Int.toNat_natCast t.code
    simp [htable, hnumber]

/-- **A cell is as wide as the reader has it**, whatever it is. -/
theorem cellWidth_ofColumn (kind : ColumnKind) :
    b.cellWidth (.ofColumn kind) = b.widths.column kind := by
  have hrows : b.widths.rows.get = b.rowCount := funext fun t => TableMap.get_ofFn b.rowCount t
  cases kind with
  | u8 | u16 | u32 | string | guid | blob => rfl
  | table t =>
    rw [CellKind.ofColumn, cellWidth, rowsNumbered_code, Widths.column, Widths.table, hrows]
  | coded k =>
    rw [CellKind.ofColumn, cellWidth, Widths.column, Widths.coded, CodedKind.width, hrows]
    simp only [any_numbers_eq]
    rw [CodedKind.tagLayout_eq]

/-- **The rows of a table are laid out as the reader has them.** -/
theorem cellWidths_eq (t : TableId) : b.cellWidths t = b.widths.sizes t := by
  rw [cellWidths, cellKinds_eq, List.map_map, Widths.sizes]
  exact List.map_congr_left fun c _ => b.cellWidth_ofColumn c.kind

@[simp] theorem length_cellWidths (t : TableId) : (b.cellWidths t).length = (cellKinds t).length :=
  List.length_map _

/-! ## Bounds -/

theorem column_bounds (kind : ColumnKind) :
    0 < b.widths.column kind ∧ b.widths.column kind ≤ 4 := by
  cases kind with
  | u8 | u16 | u32 => exact ⟨Nat.succ_pos _, by simp [Widths.column]⟩
  | string | guid | blob =>
    simp only [Widths.column, widths, stringWidth, guidWidth, blobWidth]
    split <;> omega
  | table t =>
    rw [Widths.column, Widths.table]
    split <;> omega
  | coded k =>
    rw [Widths.column, Widths.coded, CodedKind.width]
    split <;> omega

/-- A row of any table takes at least a byte, so there are no more rows than bytes. -/
theorem sum_cellWidths_pos (t : TableId) : 0 < (b.cellWidths t).sum := by
  have hcols : t.columns ≠ [] := by cases t <;> exact List.cons_ne_nil _ _
  obtain ⟨c, cs, hc⟩ := List.exists_cons_of_ne_nil hcols
  have hpos := (b.column_bounds c.kind).1
  rw [cellWidths_eq, Widths.sizes, hc, List.map_cons, List.sum_cons]
  omega

/-- No cell takes more than four bytes. -/
theorem sum_cellWidths_le (t : TableId) : (b.cellWidths t).sum ≤ 4 * (cellKinds t).length := by
  rw [cellWidths_eq, length_cellKinds, Widths.sizes]
  induction t.columns with
  | nil => exact Nat.le_refl _
  | cons c cs ih =>
    have hc := (b.column_bounds c.kind).2
    rw [List.map_cons, List.sum_cons, List.length_cons]
    omega

end Builder

end ManagedImage.Assemble
