/-
Where the tables of an accepted image lie.

Row counts, flags and sizes come out of the file unchecked, and every later read
of a cell trusts what was computed from them. What makes that safe is one cut:
each table is a window of the table stream, cut with the size that its rows take,
so an image is only accepted if all of its rows are there (`placeTable_ok`). From
the cut everything else follows. A row and a column that exist lie inside the
window, at an offset that is a sum of sizes (`cell_inside`); and since a row takes
two bytes at least and the stream is shorter than 2^32, no count reaches 2^31
(`rows_lt`), which keeps every walk over the rows away from the largest word.

`LaidOut` collects this in terms of the bytes of the stream, and the last theorem
says it of every image that parses.
-/
import ManagedImage.Proofs.Metadata.Streams
import ManagedImage.Proofs.Assemble.Lossless

set_option autoImplicit false

namespace ManagedImage

/-! ## What the stream says -/

namespace TableHead

/-- Where the rows start: behind the head, a count for each present table, and one more word if
the flags announce it. -/
def rowsOffset (h : TableHead) : Nat :=
  size + 4 * h.present.length + (if h.heapSizes.testBit extraData then 4 else 0)

/-- The row count that a stream declares for a table: that of its place among the present ones,
zero if it is not present. -/
def declaredRows (h : TableHead) (stream : List UInt8) (t : TableId) : Nat :=
  if t.code ∈ h.present then
    leNat ((stream.drop (size + 4 * (h.present.filter (· < t.code)).length)).take 4)
  else 0

end TableHead

/-- The bytes that the rows of a table take. -/
def Table.size (tb : Table) : Nat := tb.rows * tb.layout.rowSize

/-- Where a table starts in the stream: behind the tables with smaller numbers. -/
def TableHead.startOf (h : TableHead) (tables : TableMap Table) (t : TableId) : Nat :=
  h.rowsOffset
    + ((TableId.all.toList.filter fun u => u.code < t.code).map fun u => (tables.get u).size).sum

/-- Where a column starts in its row: behind the columns before it. -/
def Table.columnStart (tb : Table) (col : Nat) : Nat :=
  ((List.range col).map fun j : Nat => tb.columnSize j).sum

/-- Where a cell starts among the rows: behind the rows before it and the columns before it. -/
def Table.cellStart (tb : Table) (row col : Nat) : Nat :=
  (row - 1) * tb.layout.rowSize + tb.columnStart col

/-- The cursor comes from the start of a table by moves of any kind. -/
inductive RowCursor.Reached (tb : Table) : RowCursor → Prop
  | start : Reached tb tb.cursor
  | next {c : RowCursor} (h : Reached tb c) : Reached tb c.next.1
  | goto {c c' : RowCursor} {row : Nat} (h : Reached tb c) (hgoto : c.goto row = .ok c') :
      Reached tb c'
  | reset {c : RowCursor} (h : Reached tb c) : Reached tb c.reset

namespace Image

/-- The bytes of the table stream. -/
def tableStream (img : Image) : List UInt8 := img.streams.tables.toList

/-- Where a table starts in the stream. -/
def tableStart (img : Image) (t : TableId) : Nat := img.head.startOf img.tables t

/-- The tables lie one behind the other in the stream, and every cell is where the sizes say. -/
structure LaidOut (img : Image) : Prop where
  /-- The flags of the head are the byte at six, the mask of the present tables the word at
  eight. -/
  head : img.head.heapSizes = leNat ((img.tableStream.drop 6).take 1)
    ∧ img.head.valid = leNat ((img.tableStream.drop 8).take 8)
  /-- The row counts are those behind the head. -/
  rows : ∀ t, (img.table t).rows = img.head.declaredRows img.tableStream t
  /-- The bytes of a table are those of the stream from its start on, as many as its rows take. -/
  data : ∀ t, (img.table t).data.toList
    = (img.tableStream.drop (img.tableStart t)).take (img.table t).size
  /-- They are all inside the stream. -/
  inside : ∀ t, img.tableStart t + (img.table t).size ≤ img.tableStream.length
    ∧ (img.table t).data.len = (img.table t).size
  /-- A row is its columns one after the other. -/
  rowSize : ∀ t, (img.table t).layout.columns.size = t.columns.length
    ∧ (img.table t).layout.rowSize = (img.table t).columnStart t.columns.length
  /-- The read behind a cell that exists succeeds, and the cell is the number of the bytes that
  stand in the stream at its row and column. -/
  column : ∀ (t : TableId) (row col : Nat), 0 < row → row ≤ (img.table t).rows →
    col < t.columns.length →
    ∃ v : Nat, (img.table t).column row (col : Int) = .ok v
      ∧ (img.table t).data.index ((img.table t).cellStart row col : Nat)
          ((img.table t).columnSize (col : Int) : Nat) = .ok v
      ∧ v = leNat ((img.tableStream.drop (img.tableStart t + (img.table t).cellStart row col)).take
          ((img.table t).columnSize (col : Int)))
  /-- There are less rows than half the words, so a count that runs past the last row by one is
  still a word. -/
  bounded : ∀ t, (img.table t).rows < 0x80000000
  /-- So is every position of a cursor, and the one after it. -/
  cursors : ∀ (t : TableId) (c : RowCursor), c.Reached (img.table t) → c.position + 1 < 0x100000000

end Image

/-! ## Widths -/

namespace Widths

/-- The three widths of heap indexes are two or four. -/
structure Usual (w : Widths) : Prop where
  strings : w.strings = 2 ∨ w.strings = 4
  guid : w.guid = 2 ∨ w.guid = 4
  blob : w.blob = 2 ∨ w.blob = 4

variable {w : Widths}

/-- Only a byte column is one byte wide. -/
theorem Usual.column_of_ne (hw : w.Usual) {kind : ColumnKind} (hkind : kind ≠ .u8) :
    w.column kind = 2 ∨ w.column kind = 4 := by
  cases kind with
  | u8 => exact absurd rfl hkind
  | u16 => exact Or.inl rfl
  | u32 => exact Or.inr rfl
  | string => exact hw.strings
  | guid => exact hw.guid
  | blob => exact hw.blob
  | table t =>
    rw [Widths.column, Widths.table]
    split
    · exact Or.inr rfl
    · exact Or.inl rfl
  | coded k =>
    rw [Widths.column, Widths.coded, CodedKind.width]
    split
    · exact Or.inr rfl
    · exact Or.inl rfl

theorem Usual.column (hw : w.Usual) (kind : ColumnKind) :
    w.column kind = 1 ∨ w.column kind = 2 ∨ w.column kind = 4 := by
  by_cases hkind : kind = .u8
  · subst hkind
    exact Or.inl rfl
  · exact Or.inr (hw.column_of_ne hkind)

/-- A row takes two bytes at least, since every table has a column that is no byte. -/
theorem Usual.two_le_rowSize (hw : w.Usual) (t : TableId) : 2 ≤ (w.sizes t).sum := by
  have hcol : ∃ c ∈ t.columns, c.kind ≠ .u8 := by cases t <;> decide
  obtain ⟨c, hc, hkind⟩ := hcol
  have hmem : w.column c.kind ∈ w.sizes t := List.mem_map_of_mem hc
  have hle := List.le_sum_of_mem hmem
  have htwo := hw.column_of_ne hkind
  omega

/-- Rows of two bytes each fill a table of less than 2^32 bytes. -/
theorem Usual.rows_lt (hw : w.Usual) {t : TableId} {tb : Table}
    (hlayout : tb.layout = .ofSizes (w.sizes t)) (hsize : tb.size < 0x100000000) :
    tb.rows < 0x80000000 := by
  have hmul : tb.rows * 2 ≤ tb.size := by
    rw [Table.size, Table.rowSize_eq_sum hlayout]
    exact Nat.mul_le_mul_left _ (hw.two_le_rowSize t)
  omega

theorem Usual.size_cases (hw : w.Usual) (t : TableId) :
    ∀ size ∈ w.sizes t, size = 1 ∨ size = 2 ∨ size = 4 := by
  intro size hsize
  obtain ⟨c, -, rfl⟩ := List.mem_map.mp hsize
  exact hw.column c.kind

end Widths

theorem TableHead.usual_widths (h : TableHead) (rows : TableMap Nat) : (h.widths rows).Usual := by
  have hwidth : ∀ bit, h.heapWidth bit = 2 ∨ h.heapWidth bit = 4 := by
    intro bit
    unfold TableHead.heapWidth
    split
    · exact Or.inr rfl
    · exact Or.inl rfl
  exact ⟨hwidth _, hwidth _, hwidth _⟩

/-! ## Row counts -/

section Counts

variable {g : Region}

/-- Before the first of some numbers in order there is none. -/
theorem filter_lt_first {n : Nat} {ns : List Nat} (h : ∀ m ∈ ns, n < m) :
    (n :: ns).filter (· < n) = [] := by
  rw [List.filter_eq_nil_iff]
  intro m hm
  rw [decide_eq_true_eq, Nat.not_lt]
  rcases List.mem_cons.mp hm with rfl | hm
  · exact Nat.le_refl m
  · exact Nat.le_of_lt (h m hm)

/-- **Reading the counts.** The tables are in order, so a table's count stands behind those of the
present tables with smaller numbers; a table that is not among them keeps what it had. -/
theorem TableHead.readRows_ok : ∀ (ns : List Nat) {r r' : Reader} {rows rows' : TableMap Nat},
    r.region = g → ns.Pairwise (· < ·) → TableHead.readRows g ns r rows = .ok (rows', r') →
    r' = r.advance (4 * ns.length)
      ∧ ∀ t, (t.code ∈ ns → r.offset + 4 * (ns.filter (· < t.code)).length + 4 ≤ g.len
            ∧ rows'.get t = g.wordD 4 (r.offset + 4 * (ns.filter (· < t.code)).length))
          ∧ (t.code ∉ ns → rows'.get t = rows.get t) := by
  intro ns
  induction ns with
  | nil =>
    intro r r' rows rows' hr _ h
    cases h
    exact ⟨rfl, fun t => ⟨fun hmem => absurd hmem List.not_mem_nil, fun _ => rfl⟩⟩
  | cons n ns ih =>
    intro r r' rows rows' hr hsorted h
    rw [List.pairwise_cons] at hsorted
    obtain ⟨hfirst, hsorted⟩ := hsorted
    rw [TableHead.readRows] at h
    split at h
    · cases h
    · next t ht =>
      rw [TableId.ofCode?_eq_some_iff] at ht
      split at h
      · next count r₁ hread =>
        obtain ⟨hin, hcount, rfl⟩ := Read.word_ok (by decide) hread
        rw [hr] at hin hcount
        obtain ⟨hend, hget⟩ := ih (r := r.advance 4) hr hsorted h
        refine ⟨?_, fun u => ⟨fun hmem => ?_, fun hmem => ?_⟩⟩
        · rw [hend]
          simp only [Reader.advance, List.length_cons, Reader.mk.injEq, true_and]
          omega
        · rcases List.mem_cons.mp hmem with hu | hu
          · -- The first table: no smaller number is present, and its count is not set again.
            have hut : t = u := by
              have hsame := congrArg TableId.ofCode? (ht.trans hu.symm)
              rwa [TableId.ofCode?_code, TableId.ofCode?_code, Option.some.injEq] at hsame
            have hnot : u.code ∉ ns := fun hin => absurd (hfirst _ hin) (hu ▸ Nat.lt_irrefl _)
            rw [hu, filter_lt_first hfirst, (hget u).2 hnot, TableMap.get_set, if_pos hut,
              List.length_nil]
            exact ⟨hin, hcount⟩
          · have hlt := hfirst _ hu
            have hcons : (n :: ns).filter (· < u.code) = n :: ns.filter (· < u.code) := by
              rw [List.filter_cons, if_pos (decide_eq_true hlt)]
            have hplace : (r.advance 4).offset + 4 * (ns.filter (· < u.code)).length
                = r.offset + 4 * (n :: ns.filter (· < u.code)).length := by
              simp only [Reader.advance, List.length_cons]
              omega
            have hu' := (hget u).1 hu
            rw [hplace] at hu'
            rw [hcons]
            exact hu'
        · rw [List.mem_cons, not_or] at hmem
          rw [(hget u).2 hmem.2, TableMap.get_set, if_neg]
          rintro rfl
          exact hmem.1 ht
      · cases h

end Counts

/-! ## Tables as windows -/

/-- The values of a map that was made table by table. -/
theorem TableMap.get_of_mapM {β : Type} {f : TableId → Except Fault β} {ys : Vector β 45}
    (h : TableId.all.mapM f = .ok ys) (t : TableId) : f t = .ok ((TableMap.mk ys).get t) := by
  have harray : TableId.all.toArray.mapM f = .ok ys.toArray := by
    rw [← Vector.toArray_mapM, h]
    rfl
  have hlist : TableId.all.toList.mapM f = .ok ys.toList := by
    rw [← Vector.toList_toArray, ← Array.toList_mapM, harray]
    rfl
  have hall := Except.mapM_ok hlist
  have hcode : t.code < TableId.all.toList.length := t.code_lt
  have hget := List.forall₂_iff_get.mp hall |>.2 t.code hcode (hall.length_eq ▸ hcode)
  have ht : TableId.all.toList.get ⟨t.code, hcode⟩ = t :=
    (List.getElem?_eq_some_iff.mp t.getElem?_all).2
  rw [ht] at hget
  exact hget

/-- The tables with a smaller number, in order. -/
theorem TableId.take_all (t : TableId) :
    all.toList.take t.code = all.toList.filter fun u => u.code < t.code := by
  cases t <;> decide

/-- A table that was placed is a window of the size of its rows. -/
theorem TableStream.placeTable_ok {g : Region} {h : TableHead} {w : Widths}
    {layouts : TableMap Layout} {first : Nat} {t : TableId} {tb : Table}
    (hp : placeTable g h w layouts first t = .ok tb) :
    tb.id = t ∧ tb.rows = w.rows.get t ∧ tb.layout = layouts.get t
      ∧ g.sub (tableStart w layouts first t : Nat) (tableSize w layouts t : Nat) = .ok tb.data := by
  unfold placeTable at hp
  dsimp only at hp
  split at hp
  · next data hsub =>
    cases hp
    exact ⟨rfl, rfl, rfl, hsub⟩
  · cases hp

/-- What a stream that was read says of its tables. -/
structure TableStream.Tables (g : Region) (s : TableStream) : Prop where
  head : TableHead.size ≤ g.len ∧ s.head.heapSizes = g.wordD 1 6 ∧ s.head.valid = g.wordD 8 8
  usual : s.widths.Usual
  id : ∀ t, (s.tables.get t).id = t
  rows : ∀ t, (s.tables.get t).rows = s.head.declaredRows g.toList t
  layout : ∀ t, (s.tables.get t).layout = .ofSizes (s.widths.sizes t)
  data : ∀ t, g.sub (s.head.startOf s.tables t : Nat) ((s.tables.get t).size : Nat)
    = .ok (s.tables.get t).data

theorem TableHead.read_ok {g : Region} {head : TableHead} (h : TableHead.read g = .ok head) :
    TableHead.size ≤ g.len ∧ head.heapSizes = g.wordD 1 6 ∧ head.valid = g.wordD 8 8 := by
  unfold TableHead.read at h
  split at h
  · cases h
  · next hlen =>
    cases h
    exact ⟨Nat.not_lt.mp hlen, rfl, rfl⟩

theorem TableStream.read_ok {g : Region} {s : TableStream} (h : TableStream.read g = .ok s) :
    s.Tables g := by
  unfold TableStream.read at h
  obtain ⟨head, hhead, h⟩ := Except.bind_ok h
  obtain ⟨⟨rows, r⟩, hrows, h⟩ := Except.bind_ok h
  dsimp only at h
  split at h
  swap
  · cases h
  next r' hskip =>
  obtain ⟨tables, htables, h⟩ := Except.bind_ok h
  cases h
  have hfields := TableHead.read_ok hhead
  have hsorted : head.present.Pairwise (· < ·) :=
    List.Pairwise.sublist List.filter_sublist List.pairwise_lt_range
  obtain ⟨hr, hcounts⟩ := TableHead.readRows_ok head.present
    (r := g.reader.seekTo TableHead.size) rfl hsorted hrows
  have hdeclared : ∀ t, rows.get t = head.declaredRows g.toList t := by
    intro t
    unfold TableHead.declaredRows
    split
    · next hmem =>
      obtain ⟨hin, hcount⟩ := (hcounts t).1 hmem
      rw [hcount, Region.wordD_eq_toList hin]
      rfl
    · next hmem => rw [(hcounts t).2 hmem, TableMap.get_ofFn]
  have hoffset : r'.offset = head.rowsOffset := by
    rw [Read.skip_ok hskip, hr]
    unfold TableHead.rowsOffset
    split <;> rfl
  rw [hoffset] at htables
  -- Each table of the result was placed on its own.
  have hplaced := TableMap.get_of_mapM htables
  have hsize : ∀ t, tableSize (head.widths rows) (TableMap.ofFn (head.widths rows).layout) t
      = ((TableMap.mk tables).get t).size := by
    intro t
    obtain ⟨-, hrow, hlayout, -⟩ := placeTable_ok (hplaced t)
    rw [tableSize, Table.size, hrow, hlayout]
  refine ⟨hfields, head.usual_widths rows, fun t => (placeTable_ok (hplaced t)).1, fun t => ?_,
    fun t => ?_, fun t => ?_⟩
  · rw [(placeTable_ok (hplaced t)).2.1]
    exact hdeclared t
  · rw [(placeTable_ok (hplaced t)).2.2.1, TableMap.get_ofFn]
    rfl
  · have hdata := (placeTable_ok (hplaced t)).2.2.2
    rw [tableStart, TableId.take_all, List.map_congr_left fun u _ => hsize u, hsize t] at hdata
    exact hdata

/-- An image has the head and the tables that its table stream was read as. -/
theorem Image.tables_of_parse {data : ByteArray} {img : Image} (h : Image.parse data = .ok img) :
    ∃ stream : TableStream, stream.Tables img.streams.tables ∧ stream.head = img.head
      ∧ stream.tables = img.tables := by
  obtain ⟨-, -, root, stream, -, hread, hstreams, hhead, -, htables⟩ := Image.parse_ok h
  rw [hstreams]
  exact ⟨stream, TableStream.read_ok hread, hhead.symm, htables.symm⟩

/-- The widths of an image: every table is laid out by them. -/
theorem Image.widths_of_parse {data : ByteArray} {img : Image} (h : Image.parse data = .ok img) :
    ∃ w : Widths, w.Usual ∧ ∀ t, (img.table t).layout = .ofSizes (w.sizes t) := by
  obtain ⟨stream, hs, -, htables⟩ := tables_of_parse h
  refine ⟨stream.widths, hs.usual, fun t => ?_⟩
  rw [Image.table, ← htables, hs.layout t]

/-- The tables of an image know which they are, and have the columns of their schema. -/
theorem Image.schema_of_parse {data : ByteArray} {img : Image} (h : Image.parse data = .ok img)
    (t : TableId) :
    (img.table t).id = t ∧ (img.table t).layout.columns.size = t.columns.length := by
  obtain ⟨stream, hs, -, htables⟩ := tables_of_parse h
  obtain ⟨w, -, hlayout⟩ := widths_of_parse h
  refine ⟨?_, ?_⟩
  · rw [Image.table, ← htables, hs.id t]
  · rw [Table.size_columns_eq (hlayout t), Widths.length_sizes]

/-! ## Cells -/

section Cells

variable {tb : Table} {sizes : List Nat}

/-- A column starts behind the widths before it. -/
theorem Table.columnStart_eq (hl : tb.layout = .ofSizes sizes) {col : Nat}
    (h : col ≤ sizes.length) : tb.columnStart col = (sizes.take col).sum := by
  have hlist : ((List.range col).map fun j : Nat => tb.columnSize j) = sizes.take col := by
    apply List.ext_getElem
    · rw [List.length_map, List.length_range, List.length_take]
      omega
    · intro j hj _
      rw [List.length_map, List.length_range] at hj
      rw [List.getElem_map, List.getElem_range, List.getElem_take,
        Table.columnSize_eq hl (List.getElem?_eq_getElem (by omega))]
  rw [columnStart, hlist]

/-- **A cell lies inside its table**, since the rows before it and the columns before it leave
room for it. The read that the reader trusts is the one that is made. -/
theorem Table.cell_inside (hl : tb.layout = .ofSizes sizes)
    (hwidth : ∀ size ∈ sizes, size = 1 ∨ size = 2 ∨ size = 4) (hlen : tb.data.len = tb.size)
    {row col : Nat} (hlo : 0 < row) (hhi : row ≤ tb.rows) (hcol : col < sizes.length) :
    tb.cellStart row col + tb.columnSize (col : Int) ≤ tb.size
      ∧ tb.column row (col : Int) = .ok (tb.cell row col)
      ∧ tb.data.index (tb.cellStart row col : Nat) (tb.columnSize (col : Int) : Nat)
          = .ok (tb.cell row col)
      ∧ tb.cell row col = tb.data.wordD (tb.columnSize (col : Int)) (tb.cellStart row col) := by
  have hsize : sizes[col]? = some sizes[col] := List.getElem?_eq_getElem hcol
  have hrowSize := Table.rowSize_eq_sum hl
  have hcols := Table.size_columns_eq hl
  obtain ⟨i, rfl⟩ : ∃ i, row = i + 1 := ⟨row - 1, by omega⟩
  have hstart : tb.cellStart (i + 1) col = i * sizes.sum + (sizes.take col).sum := by
    rw [cellStart, hrowSize, Table.columnStart_eq hl (by omega), Nat.add_sub_cancel]
  have hcolSize := Table.columnSize_eq hl hsize
  have hcell := Table.cell_eq_wordD (i := i) hl hsize
  have hroom : i * sizes.sum + (sizes.take col).sum + sizes[col] ≤ tb.size := by
    have hle := sum_take_add_le hsize
    have hmul : (i + 1) * sizes.sum ≤ tb.rows * sizes.sum := Nat.mul_le_mul_right _ hhi
    rw [Nat.succ_mul, ← hrowSize, ← Table.size] at hmul
    rw [← hrowSize] at hle ⊢
    omega
  rw [hstart, hcolSize]
  refine ⟨hroom, ?_, ?_, hcell⟩
  · have hhas : (!tb.hasRow (i + 1)) = false := by
      rw [hasRow, decide_eq_true hlo, decide_eq_true hhi]
      rfl
    rw [column, hhas, if_neg Bool.false_ne_true, if_neg (by omega), Int.toNat_natCast]
  · rw [hcell]
    exact Region.index_eq_wordD (hwidth _ (List.getElem_mem hcol)) (by omega)

end Cells

/-- No move leads further than one past the last row. -/
theorem RowCursor.Reached.position_le {tb : Table} {c : RowCursor} (h : c.Reached tb) :
    c.table = tb ∧ c.position ≤ tb.rows + 1 := by
  induction h with
  | start => exact ⟨rfl, Nat.zero_le _⟩
  | @next c _ ih =>
    obtain ⟨rfl, hle⟩ := ih
    unfold RowCursor.next
    dsimp only
    split
    · next hlt => exact ⟨rfl, Nat.succ_le_succ hlt⟩
    · exact ⟨rfl, hle⟩
  | @goto c c' row _ hgoto ih =>
    unfold RowCursor.goto at hgoto
    split at hgoto
    · cases hgoto
    · next hrow =>
      cases hgoto
      obtain ⟨rfl, -⟩ := ih
      exact ⟨rfl, by show row ≤ _; omega⟩
  | reset _ ih => exact ⟨ih.1, Nat.zero_le _⟩

/-- Bytes of a window are bytes of the list it was cut from. -/
theorem take_drop_take {α : Type} (xs : List α) {start length offset size : Nat}
    (h : offset + size ≤ length) :
    ((((xs.drop start).take length).drop offset).take size)
      = (xs.drop (start + offset)).take size := by
  rw [List.drop_take, List.take_take, List.drop_drop, Nat.min_eq_left (by omega)]

/-- **Every accepted image is laid out.** The tables lie one behind the other in the table stream,
each cut with the size of its rows; every cell of a row and a column that exist is read from the
place the sizes give; and there are fewer than 2^31 rows. -/
theorem parse_laidOut {data : ByteArray} {img : Image} (h : Image.parse data = .ok img) :
    img.LaidOut := by
  obtain ⟨stream, ⟨⟨hlong, hheap, hvalid⟩, husual, -, hrows, hlayout, hdata⟩, hhead, htables⟩ :=
    Image.tables_of_parse h
  have hshort := Image.tables_len_lt h
  rw [hhead] at hheap hvalid hrows hdata
  rw [htables] at hrows hlayout hdata
  replace hlayout : ∀ t, (img.table t).layout = .ofSizes (stream.widths.sizes t) := hlayout
  rw [TableHead.size] at hlong
  have hlength := stream.widths.length_sizes
  -- The cut of each table: its bytes, and that they are all there.
  have hwindow : ∀ t, (img.table t).data.toList
      = (img.tableStream.drop (img.tableStart t)).take (img.table t).size :=
    fun t => Region.toList_of_sub (hdata t)
  have hinside : ∀ t, img.tableStart t + (img.table t).size ≤ img.tableStream.length
      ∧ (img.table t).data.len = (img.table t).size := by
    intro t
    obtain ⟨-, -, hin, -, -, hlen⟩ := Region.sub_ok (hdata t)
    rw [Int.toNat_natCast] at hin hlen
    rw [Image.tableStream, Region.length_toList]
    exact ⟨hin, hlen⟩
  have hbounded : ∀ t, (img.table t).rows < 0x80000000 := by
    intro t
    have hlen := (hinside t).1
    rw [Image.tableStream, Region.length_toList] at hlen
    exact husual.rows_lt (hlayout t) (by omega)
  refine ⟨⟨?_, ?_⟩, hrows, hwindow, hinside,
    fun t => ⟨(Image.schema_of_parse h t).2, ?_⟩, ?_, fun t => ?_, fun t => ?_⟩
  · rw [hheap, Region.wordD_eq_toList (by omega)]
    rfl
  · rw [hvalid, Region.wordD_eq_toList (by omega)]
    rfl
  · rw [Table.columnStart_eq (hlayout t) (Nat.le_of_eq (hlength t).symm),
      Table.rowSize_eq_sum (hlayout t), List.take_of_length_le (Nat.le_of_eq (hlength t))]
  · intro t row col hlo hhi hcol
    have hin := (hinside t).2
    obtain ⟨hroom, hcolumn, hindex, hcell⟩ :=
      Table.cell_inside (hlayout t) (husual.size_cases t) hin hlo hhi (by rw [hlength]; exact hcol)
    refine ⟨_, hcolumn, hindex, ?_⟩
    rw [hcell, Region.wordD_eq_toList (by omega), hwindow t, take_drop_take _ hroom]
  · exact hbounded t
  · intro c hc
    have hle := hc.position_le.2
    have hlt := hbounded t
    omega

/-- A type reference and a row of padding behind it. -/
def Assemble.twoTypeRefs : List Step :=
  [.row .typeRef [.number 5, .string "T", .string "N"], .pad .typeRef 1]

theorem parse_laidOut_typeRefs :
    ∃ (results : List Int) (b : Assemble.Builder) (img : Image),
      Assemble.build Assemble.twoTypeRefs = .ok (results, b) ∧ Image.parse b.bytes = .ok img
        ∧ (img.table .typeRef).rows = 2 ∧ img.LaidOut := by
  have hproper : ∀ s ∈ Assemble.twoTypeRefs, s.Proper := by
    simp [Assemble.twoTypeRefs, Assemble.Step.Proper, TableId.columns]
  obtain ⟨results, b, img, hbuild, hparse, hrows, hread, -⟩ :=
    Assemble.reproduces_of_build hproper (p := fun b => b.rowCount .typeRef = 2) (by decide +kernel)
  exact ⟨results, b, img, hbuild, hparse, (hread.rows .typeRef).trans hrows, parse_laidOut hparse⟩

end ManagedImage
