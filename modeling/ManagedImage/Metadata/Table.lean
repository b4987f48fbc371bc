/-
One metadata table: rows of cells, all of one layout.

Rows are counted from one. `cell` reads a row and column that are known to
exist; the checked readers around it say which of the two is wrong.

Looking a value up in a column is a scan, or a binary search when the image
flags the table as sorted. The flag is believed, not checked, so on a table
that is flagged but not sorted a search may miss rows.
-/
import ManagedImage.Metadata.Schema
import ManagedImage.Bytes.Region

set_option autoImplicit false

namespace ManagedImage

/-- A table of an image. -/
structure Table where
  /-- Which table it is. -/
  id : TableId
  /-- The number of rows. -/
  rows : Nat
  /-- Whether the image flags it as sorted. -/
  sorted : Bool
  /-- The width of a row number of this table. -/
  indexWidth : Nat
  /-- Where the columns lie. -/
  layout : Layout
  /-- The rows, one after the other. -/
  data : Region

namespace Table

/-- The width of a column; zero for a column that does not exist. -/
def columnSize (t : Table) (col : Int) : Nat :=
  if col < 0 then 0 else (t.layout.columns.getD col.toNat (0, 0)).2

/-- The cell of a row and column that exist, zero elsewhere. -/
def cell (t : Table) (row col : Nat) : Nat :=
  if row = 0 then 0
  else match t.layout.columns[col]? with
    | some (offset, size) => t.data.wordD size ((row - 1) * t.layout.rowSize + offset)
    | none => 0

/-- Whether a row exists. -/
def hasRow (t : Table) (row : Nat) : Bool := 0 < row && row ≤ t.rows

/-- The fault of a row that does not exist. -/
def rowFault (t : Table) (row : Nat) : Fault :=
  .bounds .table Fault.noOffset
    (t.id.name ++ s!" row {row} out of range (rows={t.rows})" : String)

/-- The value of a column in a row. -/
def column (t : Table) (row : Nat) (col : Int) : Except Fault Nat :=
  if !t.hasRow row then .error (t.rowFault row)
  else if col < 0 ∨ t.layout.columns.size ≤ col.toNat then
    .error (.invalidInput .table (t.id.name ++ " has no column " ++ decimal col : String))
  else .ok (t.cell row col.toNat)

/-- The values of all columns of a row. -/
def cells (t : Table) (row : Nat) : List Nat :=
  (List.range t.layout.columns.size).map (t.cell row)

/-- The values of all columns of a row, if it exists. -/
def row (t : Table) (row : Nat) : Except Fault (List Nat) :=
  if t.hasRow row then .ok (t.cells row) else .error (t.rowFault row)

/-- The row numbers in order. -/
def rowNumbers (t : Table) : List Nat := List.range' 1 t.rows

/-! ## Searching -/

/-- The first position from `lo` up to `hi` at which `p` holds, if it holds from some position
on. -/
def lowerBound (p : Nat → Bool) (lo hi : Nat) : Nat :=
  if lo < hi then
    let mid := (lo + hi) / 2
    if p mid then lowerBound p lo mid else lowerBound p (mid + 1) hi
  else lo
termination_by hi - lo

/-- The last row of the run of rows that hold the value, starting from one that does. -/
def runEnd (t : Table) (col value row : Nat) : Nat :=
  if row < t.rows ∧ t.cell (row + 1) col = value then t.runEnd col value (row + 1) else row
termination_by t.rows - row

/-- First and last row of the run that binary search finds. -/
def sortedRange? (t : Table) (col value : Nat) : Option (Nat × Nat) :=
  let i := lowerBound (fun i => value ≤ t.cell (i + 1) col) 0 t.rows
  if i < t.rows ∧ t.cell (i + 1) col = value then some (i + 1, t.runEnd col value (i + 1)) else none

/-- The rows that hold a value, by scanning. -/
def scan (t : Table) (col value : Nat) : List Nat :=
  t.rowNumbers.filter fun row => t.cell row col = value

/-- First and last row that a scan finds. -/
def scannedRange? (t : Table) (col value : Nat) : Option (Nat × Nat) :=
  t.rowNumbers.foldl (fun found row =>
    if t.cell row col = value then some ((found.map (·.1)).getD row, row) else found) none

/-- First and last row that hold a value in a column. -/
def searchRange? (t : Table) (col : Int) (value : Nat) : Option (Nat × Nat) :=
  if col < 0 ∨ t.layout.columns.size ≤ col.toNat then none
  else if t.sorted then t.sortedRange? col.toNat value
  else t.scannedRange? col.toNat value

/-- The rows that hold a value in a column, in order. -/
def rowsWhere (t : Table) (col value : Nat) : List Nat :=
  if t.sorted then
    match t.searchRange? col value with
    | some (first, last) => List.range' first (last + 1 - first)
    | none => []
  else t.scan col value

/-- The first row that holds a value in a column, zero if there is none. -/
def search (t : Table) (col : Int) (value : Nat) : Nat :=
  ((t.searchRange? col value).map (·.1)).getD 0

end Table

/-! ## Walking the rows -/

/-- A position among the rows of a table: zero before the first, one more than the row count
after the last. -/
structure RowCursor where
  /-- The table. -/
  table : Table
  /-- The row, or a position off the rows. -/
  position : Nat

/-- A cell read as what its column holds. -/
inductive CellView where
  /-- A number or a heap index. -/
  | number (n : Nat)
  /-- A reference to a row. -/
  | token (t : Token)

/-- A cursor before the first row. -/
def Table.cursor (t : Table) : RowCursor := ⟨t, 0⟩

namespace RowCursor

/-- Whether the cursor is before the first row. -/
def atStart (c : RowCursor) : Bool := c.position == 0

/-- Whether the cursor is after the last row. -/
def atEnd (c : RowCursor) : Bool := c.table.rows < c.position

/-- Whether the cursor is on a row. -/
def onRow (c : RowCursor) : Bool := c.table.hasRow c.position

/-- Moves to a row; zero is the position before the first. -/
def goto (c : RowCursor) (row : Nat) : Except Fault RowCursor :=
  if c.table.rows < row then .error (c.table.rowFault row) else .ok { c with position := row }

/-- Moves one row on and says whether that is a row. -/
def next (c : RowCursor) : RowCursor × Bool :=
  let c' := if c.position ≤ c.table.rows then { c with position := c.position + 1 } else c
  (c', c'.position ≤ c.table.rows)

/-- Moves before the first row. -/
def reset (c : RowCursor) : RowCursor := { c with position := 0 }

/-- The token of the position. -/
def token (c : RowCursor) : Token := Token.make c.table.id c.position

/-- The value of a column in the current row. -/
def column (c : RowCursor) (col : Int) : Except Fault Nat := c.table.column c.position col

/-- The cell of a column, zero off the rows. -/
def value (c : RowCursor) (col : Nat) : Nat := if c.onRow then c.table.cell c.position col else 0

/-- A coded column decoded. -/
def coded (c : RowCursor) (k : CodedKind) (col : Nat) : Except Fault Token :=
  if c.onRow then k.decode (c.table.cell c.position col)
  else .error (.invalidInput .table (c.table.id.name ++ " cursor is not on a row" : String))

/-- A column read as what it holds. -/
def view (c : RowCursor) (kind : ColumnKind) (col : Nat) : Except Fault CellView :=
  match kind with
  | .table t => .ok (.token (Token.make t (c.value col)))
  | .coded k => (c.coded k col).map .token
  | _ => .ok (.number (c.value col))

/-- The name under which a column of the current row is offered. A column that is called like
the token of the row itself is the token that the row records. -/
def accessorName (c : Column) : String := if c.name = "Token" then "RecordToken" else c.name

/-- Every column of the current row by name. -/
def accessors (c : RowCursor) : List (String × Except Fault CellView) :=
  c.table.id.columns.mapIdx fun i col => (accessorName col, c.view col.kind i)

end RowCursor

end ManagedImage
