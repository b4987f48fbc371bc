/-
Cursors over the rows of a table, under moves in any order, and what their accessors give.

A move keeps the position between the place before the first row and the one behind the last:
that is one step (`RowCursor.Reached`), and every sequence of moves is a walk of such steps. What a
cursor answers then depends on the position alone.

The accessors of a table know their columns by number, and the schema is a second list beside them.
Both agree on all tables (`TableId.accessors_eq`): an accessor stands at the place of its column,
under its name, and is as wide as its kind asks for. So no accessor cuts a number off, and each is
the view of the column that it is named after (`RowCursor.read_eq_view`).
-/
import ManagedImage.Metadata.Accessor
import ManagedImage.Proofs.Metadata.TableLayout
import ManagedImage.Proofs.Assemble.Lossless

set_option autoImplicit false

namespace ManagedImage

/-! ## Moves -/

/-- A move of a cursor. -/
inductive RowMove where
  | next
  | goto (row : Nat)
  | reset

namespace RowCursor

variable {tb : Table} {c : RowCursor}

/-- The cursor after a move; one that fails leaves it where it is. -/
def perform (c : RowCursor) : RowMove → RowCursor
  | .next => c.next.1
  | .goto row => match c.goto row with
    | .ok c' => c'
    | .error _ => c
  | .reset => c.reset

/-- The cursor after some moves, one after the other. -/
def performAll (c : RowCursor) (moves : List RowMove) : RowCursor := moves.foldl perform c

/-- What some calls of `next` answer, each with the position it leads to. -/
def nexts : Nat → RowCursor → List (Bool × Nat)
  | 0, _ => []
  | n + 1, c => (c.next.2, c.next.1.position) :: nexts n c.next.1

theorem Reached.perform (h : c.Reached tb) (m : RowMove) : (c.perform m).Reached tb := by
  cases m with
  | next => exact h.next
  | goto row =>
    rw [RowCursor.perform]
    split
    · next c' hgoto => exact h.goto hgoto
    · exact h
  | reset => exact h.reset

theorem Reached.performAll (h : c.Reached tb) (moves : List RowMove) :
    (c.performAll moves).Reached tb := by
  induction moves generalizing c with
  | nil => exact h
  | cons m moves ih => exact ih (h.perform m)

theorem goto_fails_iff {row : Nat} : (∃ f, c.goto row = .error f) ↔ c.table.rows < row := by
  rw [goto]
  split
  · next h => exact ⟨fun _ => h, fun _ => ⟨_, rfl⟩⟩
  · next h => exact ⟨fun ⟨_, hf⟩ => (nomatch hf), fun hlt => absurd hlt h⟩

theorem perform_of_goto_fails {row : Nat} (h : ∃ f, c.goto row = .error f) :
    c.perform (.goto row) = c := by
  obtain ⟨f, hf⟩ := h
  rw [perform, hf]

/-- A `goto` that succeeds leads to the row it was asked for, in the same table. -/
theorem goto_lands {c' : RowCursor} {row : Nat} (h : c.goto row = .ok c') :
    c.perform (.goto row) = c' ∧ c'.table = c.table ∧ c'.position = row := by
  refine ⟨by rw [perform, h], ?_⟩
  rw [goto] at h
  split at h
  · cases h
  · cases h
    exact ⟨rfl, rfl⟩

/-! ### Walking on -/

theorem next_of_lt {p : Nat} (h : p < tb.rows) :
    RowCursor.next ⟨tb, p⟩ = (⟨tb, p + 1⟩, true) := by
  unfold next
  rw [if_pos (Nat.le_of_lt h)]
  exact congrArg _ (decide_eq_true h)

/-- Behind the last row a cursor stays, and it has no row to answer with. -/
theorem next_of_le {p : Nat} (h : tb.rows ≤ p) (hle : p ≤ tb.rows + 1) :
    RowCursor.next ⟨tb, p⟩ = (⟨tb, tb.rows + 1⟩, false) := by
  have hanswer : decide (tb.rows + 1 ≤ tb.rows) = false := decide_eq_false (by omega)
  unfold next
  rcases Nat.eq_or_lt_of_le h with rfl | hlt
  · rw [if_pos (Nat.le_refl _)]
    exact congrArg _ hanswer
  · obtain rfl : p = tb.rows + 1 := Nat.le_antisymm hle hlt
    rw [if_neg (Nat.not_le_of_lt hlt)]
    exact congrArg _ hanswer

theorem nexts_behind (k : Nat) : ∀ {p : Nat}, tb.rows ≤ p → p ≤ tb.rows + 1 →
    nexts k ⟨tb, p⟩ = List.replicate k (false, tb.rows + 1) := by
  induction k with
  | zero => exact fun _ _ => rfl
  | succ k ih =>
    intro p h hle
    rw [nexts, next_of_le h hle, ih (Nat.le_succ _) (Nat.le_refl _)]
    rfl

/-- **Walking on** from a position visits each row behind it once, in order, and finds no further
row from there on. -/
theorem nexts_eq (k n : Nat) : ∀ {p : Nat}, p + n = tb.rows →
    nexts (n + k) ⟨tb, p⟩
      = (List.range' (p + 1) n).map (fun row => (true, row))
        ++ List.replicate k (false, tb.rows + 1) := by
  induction n with
  | zero =>
    intro p h
    rw [Nat.zero_add, nexts_behind k (by omega) (by omega)]
    rfl
  | succ n ih =>
    intro p h
    have hlt : p < tb.rows := by omega
    rw [Nat.succ_add_eq_add_succ, Nat.add_succ, nexts, next_of_lt hlt,
      ih (by omega), List.range'_succ, List.map_cons, List.cons_append]

end RowCursor

/-! ## Accessors beside the schema -/

namespace ColumnKind

/-- What the accessor of a column makes of its cell. -/
def reading : ColumnKind → Reading
  | .u8 => .number 8
  | .u16 => .number 16
  | .u32 | .string | .guid | .blob => .number 32
  | .table _ => .row
  | .coded _ => .coded

/-- What a cell of a column with this value is taken for. -/
def shown (kind : ColumnKind) (v : Nat) : Except Fault CellView :=
  match kind with
  | .table t => .ok (.token (Token.make t v))
  | .coded k => (k.decode v).map .token
  | _ => .ok (.number v)

/-- What is shown of a column where there is no row. -/
def absent (kind : ColumnKind) (t : TableId) : Except Fault CellView :=
  match kind with
  | .table u => .ok (.token (Token.make u 0))
  | .coded _ => .error (.invalidInput .table (t.name ++ " cursor is not on a row" : String))
  | _ => .ok (.number 0)

end ColumnKind

namespace TableId

/-- **The two lists agree**: the accessors of a table are its columns in order. -/
theorem accessors_eq (t : TableId) : t.accessors = t.columns.mapIdx fun i col =>
    ⟨RowCursor.accessorName col, i, col.kind.reading⟩ := by
  cases t <;> rfl

/-- No two columns of a table are offered under one name. -/
theorem nodup_accessorNames (t : TableId) : (t.columns.map RowCursor.accessorName).Nodup := by
  cases t <;> decide

theorem mem_accessors {t : TableId} {a : Accessor} (h : a ∈ t.accessors) :
    ∃ col, t.columns[a.column]? = some col ∧ a.name = RowCursor.accessorName col
      ∧ a.reading = col.kind.reading := by
  rw [accessors_eq] at h
  obtain ⟨i, hi, rfl⟩ := List.mem_mapIdx.mp h
  exact ⟨_, List.getElem?_eq_getElem hi, rfl, rfl⟩

/-- The column that an accessor is named after is the one it reads. -/
theorem column_of_name {t : TableId} {a : Accessor} (h : a ∈ t.accessors) {i : Nat} {col : Column}
    (hcol : t.columns[i]? = some col) (hname : a.name = RowCursor.accessorName col) :
    a.column = i ∧ a.reading = col.kind.reading := by
  obtain ⟨col', hcol', hname', hreading⟩ := mem_accessors h
  have hi : (t.columns.map RowCursor.accessorName)[i]? = some a.name := by
    rw [List.getElem?_map, hcol, Option.map_some, hname]
  have hj : (t.columns.map RowCursor.accessorName)[a.column]? = some a.name := by
    rw [List.getElem?_map, hcol', Option.map_some, hname']
  obtain rfl : a.column = i := by
    obtain ⟨hlt, -⟩ := List.getElem?_eq_some_iff.mp hj
    exact (List.getElem?_inj hlt (nodup_accessorNames t)).mp (hj.trans hi.symm)
  rw [hcol] at hcol'
  obtain rfl := Option.some.inj hcol'
  exact ⟨rfl, hreading⟩

end TableId

/-! ## What an accessor gives -/

/-- A plain column is no wider than the number that its accessor returns. -/
theorem Widths.Usual.pow_column_le {w : Widths} (hw : w.Usual) {kind : ColumnKind} {bits : Nat}
    (h : kind.reading = .number bits) : 256 ^ (w.column kind) ≤ 2 ^ bits := by
  have hheap : ∀ {n : Nat}, n = 2 ∨ n = 4 → 256 ^ n ≤ 2 ^ 32 := by
    rintro n (rfl | rfl) <;> decide
  cases kind with
  | u8 | u16 | u32 =>
    cases h
    exact Nat.le_refl _
  | string =>
    cases h
    exact hheap hw.strings
  | guid =>
    cases h
    exact hheap hw.guid
  | blob =>
    cases h
    exact hheap hw.blob
  | table t => cases h
  | coded k => cases h

/-- A cell is a word as wide as its column. -/
theorem Table.cell_lt {tb : Table} {w : Widths} {t : TableId}
    (hlayout : tb.layout = .ofSizes (w.sizes t)) {i : Nat} {col : Column}
    (hcol : t.columns[i]? = some col) (row : Nat) :
    tb.cell row i < 256 ^ (w.column col.kind) := by
  have hsize : (w.sizes t)[i]? = some (w.column col.kind) := by
    rw [Widths.sizes, List.getElem?_map, hcol]
    rfl
  cases row with
  | zero => exact Nat.pow_pos (by decide)
  | succ row =>
    rw [Table.cell_eq_wordD hlayout hsize]
    exact Region.wordD_lt _ _ _

namespace RowCursor

variable {c : RowCursor} {t : TableId} {w : Widths} {i : Nat} {col : Column}

theorem value_lt (hlayout : c.table.layout = .ofSizes (w.sizes t))
    (hcol : t.columns[i]? = some col) : c.value i < 256 ^ (w.column col.kind) := by
  unfold value
  split
  · exact Table.cell_lt hlayout hcol _
  · exact Nat.pow_pos (by decide)

/-- **An accessor is the view of its column**: it looks up the table or the kind that the schema
has for the column, and a number fits into its bits. -/
theorem read_eq_view (hid : c.table.id = t) (hw : w.Usual)
    (hlayout : c.table.layout = .ofSizes (w.sizes t)) {a : Accessor}
    (hcol : t.columns[a.column]? = some col) (hreading : a.reading = col.kind.reading) :
    c.read a = c.view col.kind a.column := by
  obtain ⟨name, kind⟩ := col
  have hvalue := value_lt hlayout hcol
  have hplain : ∀ {bits : Nat}, kind.reading = .number bits →
      c.value a.column % 2 ^ bits = c.value a.column := fun h =>
    Nat.mod_eq_of_lt (Nat.lt_of_lt_of_le hvalue (hw.pow_column_le h))
  unfold read view
  rw [hreading, hid]
  cases kind with
  | u8 | u16 | u32 | string | guid | blob =>
    exact congrArg (fun n => Except.ok (CellView.number n)) (hplain rfl)
  | table u =>
    have htarget : t.target a.column = u := by rw [TableId.target, hcol]
    exact congrArg (fun u => Except.ok (CellView.token (Token.make u _))) htarget
  | coded k =>
    have hkind : t.codedKind a.column = k := by rw [TableId.codedKind, hcol]
    exact congrArg (fun k => (c.coded k a.column).map CellView.token) hkind

/-- On a row a column shows its value. -/
theorem view_onRow (hon : c.onRow = true) (hin : i < c.table.layout.columns.size)
    (kind : ColumnKind) :
    c.column (i : Int) = .ok (c.table.cell c.position i)
      ∧ c.view kind i = kind.shown (c.table.cell c.position i) := by
  have hrow : c.table.hasRow c.position = true := hon
  have hvalue : c.value i = c.table.cell c.position i := by rw [value, if_pos hon]
  constructor
  · rw [column, Table.column, hrow, if_neg (by simp), if_neg (by omega), Int.toNat_natCast]
  · unfold view
    cases kind with
    | coded k =>
      dsimp only
      rw [coded, if_pos hon]
      rfl
    | _ =>
      dsimp only
      rw [hvalue]
      rfl

theorem view_offRow (hid : c.table.id = t) (hoff : c.onRow = false) (kind : ColumnKind) :
    c.view kind i = kind.absent t := by
  have hnot : ¬ c.onRow = true := by rw [hoff]; exact Bool.false_ne_true
  have hvalue : c.value i = 0 := by rw [value, if_neg hnot]
  unfold view
  cases kind with
  | coded k =>
    dsimp only
    rw [coded, if_neg hnot, hid]
    rfl
  | _ =>
    dsimp only
    rw [hvalue]
    rfl

/-- What the accessors of a table offer is what its schema says column by column. -/
theorem offered_eq_accessors (hid : c.table.id = t) (hw : w.Usual)
    (hlayout : c.table.layout = .ofSizes (w.sizes t)) : c.offered = c.accessors := by
  rw [offered, accessors, hid, TableId.accessors_eq]
  apply List.ext_getElem?
  intro i
  rw [List.getElem?_map, List.getElem?_mapIdx, List.getElem?_mapIdx, Option.map_map]
  cases hcol : t.columns[i]? with
  | none => rfl
  | some col =>
    exact congrArg (fun v => some (accessorName col, v)) (read_eq_view hid hw hlayout hcol rfl)

/-- At this position every accessor gives what its table's schema says: there is one for each
column and under its name, it shows the value of the column on a row, and off the rows it gives
zero, the token of row zero or a fault. All together they offer the view that the schema has. -/
structure Conforms (c : RowCursor) (t : TableId) : Prop where
  names : t.accessors.map (·.name) = t.columns.map accessorName
  distinct : (t.columns.map accessorName).Nodup
  onRow : c.onRow = true → ∀ a ∈ t.accessors, ∀ (i : Nat) (col : Column),
    t.columns[i]? = some col → a.name = accessorName col →
    ∃ v : Nat, c.column (i : Int) = .ok v ∧ c.read a = col.kind.shown v
  offRow : c.onRow = false → ∀ a ∈ t.accessors, ∀ (i : Nat) (col : Column),
    t.columns[i]? = some col → a.name = accessorName col → c.read a = col.kind.absent t
  offered : c.offered = c.accessors

theorem conforms (hid : c.table.id = t) (hw : w.Usual)
    (hlayout : c.table.layout = .ofSizes (w.sizes t)) : c.Conforms t := by
  refine ⟨?_, t.nodup_accessorNames, fun hon a ha i col hcol hname => ?_,
    fun hoff a ha i col hcol hname => ?_, offered_eq_accessors hid hw hlayout⟩
  · rw [TableId.accessors_eq]
    apply List.ext_getElem?
    intro i
    rw [List.getElem?_map, List.getElem?_mapIdx, List.getElem?_map, Option.map_map]
    rfl
  · obtain ⟨rfl, hreading⟩ := TableId.column_of_name ha hcol hname
    have hin : a.column < c.table.layout.columns.size := by
      rw [Table.size_columns_eq hlayout, Widths.length_sizes]
      exact (List.getElem?_eq_some_iff.mp hcol).1
    obtain ⟨hcolumn, hview⟩ := view_onRow hon hin col.kind
    exact ⟨_, hcolumn, (read_eq_view hid hw hlayout hcol hreading).trans hview⟩
  · obtain ⟨rfl, hreading⟩ := TableId.column_of_name ha hcol hname
    exact (read_eq_view hid hw hlayout hcol hreading).trans (view_offRow hid hoff col.kind)

end RowCursor

/-- **Cursors are safe under any moves, and their accessors match the schema.** From the start of a
table of a parsed image no move leads further than one behind the last row; one to a row leads to
just that row, and one that fails leads nowhere. After a reset the rows are visited once each, in
order, and then there is none. The token on a row is that row's, and every accessor gives the column
it is named after. -/
theorem Image.row_cursors_conform {data : ByteArray} {img : Image}
    (h : Image.parse data = .ok img) (hsmall : ∀ t, (img.table t).rows < Token.rowSpan)
    (t : TableId) (moves : List RowMove) {c : RowCursor}
    (hc : (img.table t).cursor.performAll moves = c) :
    c.position ≤ (img.table t).rows + 1
      ∧ (∀ row, ((∃ f, c.goto row = .error f) ↔ (img.table t).rows < row)
        ∧ ((∃ f, c.goto row = .error f) → c.perform (.goto row) = c)
        ∧ (∀ c', c.goto row = .ok c' →
            c.perform (.goto row) = c' ∧ c'.table = img.table t ∧ c'.position = row))
      ∧ (∀ k, RowCursor.nexts ((img.table t).rows + k) (c.perform .reset)
        = (List.range' 1 (img.table t).rows).map (fun row => (true, row))
          ++ List.replicate k (false, (img.table t).rows + 1))
      ∧ (c.onRow = true → c.token.table? = some t ∧ c.token.row = c.position)
      ∧ c.Conforms t := by
  obtain ⟨w, hw, hlayout⟩ := Image.widths_of_parse h
  have hreached : c.Reached (img.table t) := hc ▸ RowCursor.Reached.start.performAll moves
  obtain ⟨htable, hposition⟩ := hreached.position_le
  have hid : c.table.id = t := by rw [htable, (Image.schema_of_parse h t).1]
  refine ⟨hposition, fun row => ⟨?_, RowCursor.perform_of_goto_fails, fun c' hgoto => ?_⟩,
    fun k => ?_, fun hon => ?_, RowCursor.conforms hid hw (htable ▸ hlayout t)⟩
  · rw [← htable]
    exact RowCursor.goto_fails_iff
  · rw [← htable]
    exact RowCursor.goto_lands hgoto
  · have hreset : c.perform .reset = ⟨img.table t, 0⟩ := by rw [← htable]; rfl
    rw [hreset]
    exact RowCursor.nexts_eq k _ (Nat.zero_add _)
  · have hlow : c.position < Token.rowSpan := by
      rw [RowCursor.onRow, Table.hasRow, Bool.and_eq_true, decide_eq_true_eq, decide_eq_true_eq,
        htable] at hon
      exact Nat.lt_of_le_of_lt hon.2 (hsmall t)
    rw [RowCursor.token, hid, Token.table?_make, Token.row_make, Nat.mod_eq_of_lt hlow]
    exact ⟨rfl, rfl⟩

open Assemble in
theorem Image.row_cursors_conform_typeRefs :
    ∃ (results : List Int) (b : Builder) (img : Image), build twoTypeRefs = .ok (results, b)
      ∧ Image.parse b.bytes = .ok img
      ∧ RowCursor.nexts 4 (((img.table .typeRef).cursor.performAll
          [.goto 2, .next, .goto 9]).perform .reset) = [(true, 1), (true, 2), (false, 3), (false, 3)]
      ∧ ((img.table .typeRef).cursor.performAll [.goto 2, .reset, .next]).read
          ⟨"ResolutionScope", 0, .coded⟩ = .ok (.token (Token.make .moduleRef 1))
      ∧ ∃ f, (img.table .typeRef).cursor.read ⟨"ResolutionScope", 0, .coded⟩ = .error f := by
  have hproper : ∀ s ∈ twoTypeRefs, s.Proper := by
    simp [twoTypeRefs, Step.Proper, TableId.columns]
  obtain ⟨results, b, img, hbuild, hparse, ⟨hrows, hall, hrow⟩, hread, -⟩ :=
    reproduces_of_build hproper (p := fun b => b.rowCount .typeRef = 2
      ∧ (∀ t ∈ TableId.all.toList, b.rowCount t ≤ 2)
      ∧ (b.rows.get .typeRef).explicit[0]? = some [5, 1, 3]) (by decide +kernel)
  have htwo : (img.table .typeRef).rows = 2 := (hread.rows .typeRef).trans hrows
  have hsmall : ∀ t, (img.table t).rows < Token.rowSpan := fun t =>
    Nat.lt_of_le_of_lt ((hread.rows t).trans_le (hall t t.mem_all)) (by decide)
  have hfirst : (img.table .typeRef).cursor.performAll [.goto 2, .reset, .next]
      = ⟨img.table .typeRef, 1⟩ := by
    have hin : ¬ (img.table .typeRef).rows < 2 := by omega
    have hgoto : (img.table .typeRef).cursor.goto 2 = .ok ⟨img.table .typeRef, 2⟩ := if_neg hin
    have hnext : RowCursor.next ⟨img.table .typeRef, 0⟩ = (⟨img.table .typeRef, 1⟩, true) :=
      RowCursor.next_of_lt (by omega)
    simp only [RowCursor.performAll, List.foldl_cons, List.foldl_nil, RowCursor.perform, hgoto,
      RowCursor.reset, hnext]
  have hmem : ⟨"ResolutionScope", 0, .coded⟩ ∈ TableId.typeRef.accessors := List.mem_cons_self
  obtain ⟨-, -, hnexts, -, -⟩ :=
    row_cursors_conform hparse hsmall .typeRef [.goto 2, .next, .goto 9] rfl
  obtain ⟨-, -, -, -, hon⟩ := row_cursors_conform hparse hsmall .typeRef _ hfirst
  obtain ⟨-, -, -, -, hoff⟩ := row_cursors_conform hparse hsmall .typeRef [] rfl
  refine ⟨results, b, img, hbuild, hparse, ?_, ?_, ?_⟩
  · have htail := hnexts 2
    rw [htwo] at htail
    exact htail
  · obtain ⟨hexists, hcells⟩ := Table.cell_of_row (hread.row .typeRef 0 _ hrow)
    obtain ⟨v, hv, hshown⟩ := hon.onRow hexists _ hmem 0 ⟨"ResolutionScope", .coded .resolutionScope⟩
      rfl rfl
    have hin : 0 < (img.table .typeRef).layout.columns.size := by
      rw [(schema_of_parse hparse .typeRef).2]
      decide
    have hcolumn := (RowCursor.view_onRow (c := ⟨img.table .typeRef, 1⟩) hexists hin .u8).1
    have hfive : v = 5 := (Except.ok.inj (hv.symm.trans hcolumn)).trans (hcells 0 5 rfl)
    rw [hfirst, hshown, hfive]
    rfl
  · exact ⟨_, hoff.offRow rfl _ hmem 0 ⟨"ResolutionScope", .coded .resolutionScope⟩ rfl rfl⟩

end ManagedImage
