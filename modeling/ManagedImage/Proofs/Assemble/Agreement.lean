/-
The assembler and the reader agree on tables.

`parse_rowsFit` composes the container, the root and the table stream: the image
that is read has the builder's streams, counts, layouts and row bytes. What is
left is arithmetic over widths. A reference is truncated only if it does not
fit its cell, and the cell is as wide as the largest reference needs: an index
into a heap is below the size that widens it, a row number below the count, a
coded index below the shifted count (`fits_of_reference`).

The last theorem states the agreement for every list of proper steps.
-/
import ManagedImage.Proofs.Assemble.TableData
import ManagedImage.Proofs.Assemble.Run
import ManagedImage.Proofs.Bytes.Signs
import ManagedImage.Proofs.Metadata.CodedIndex

set_option autoImplicit false

namespace ManagedImage.Assemble

open Portable

namespace Builder

/-! ## The image -/

/-- What is read of a builder's image: its streams and its tables. -/
structure ReadBack (b : Builder) (img : Image) : Prop where
  streams : RootStreams b img.streams
  widths : img.widths = b.widths
  tables : TableContents b img.tables

/-- The executable that is read of a builder's file: the file itself under one section. -/
structure OneSection (b : Builder) (f : File) : Prop where
  region : f.region = Region.whole b.bytes
  sections : ∃ s : Section, f.sections = #[s] ∧ s.virtualSize = b.sectionData.length
    ∧ s.virtualAddress = sectionAddress ∧ s.rawOffset = headerSize

/-- **The image read back.** If the rows fit their tables, the builder's file of less than 2^29
bytes parses, and the image has the builder's section, streams and tables. -/
theorem parse_rowsFit {b : Builder} (hfit : b.RowsFit) (hsize : b.bytes.size < 0x20000000) :
    ∃ img : Image, Image.parse b.bytes = .ok img ∧ ReadBack b img ∧ OneSection b img.file := by
  have hsection := b.length_sectionData_le
  have hlength := b.length_sectionData
  obtain ⟨f, s, hparse, hregion, hsections, hvs, hva, hraw, hdir⟩ := parse_bytes b hsize
  -- From the directory to the root, from the root to its streams, from there to the tables.
  have hroot := b.holds_metadataRoot
  have hstart : b.rootOffset < b.sectionData.length := by
    have hmagic : 0 < b.metadataRoot.length := by
      simp only [metadataRoot_eq, List.length_append, length_leBytes]
      omega
    omega
  obtain ⟨g, hat, hg⟩ := regionAt_section hregion hsections hvs hva hraw hstart hroot
  obtain ⟨root, hread, hstreams⟩ := read_metadataRoot hg (by rw [hg.len_eq]; omega)
  have htables : root.streams.tables.Holds 0 b.tableData := hstreams.tables.holds.left
  have hsmall : root.streams.tables.len < 0x20000000 := by
    rw [hstreams.tables.len_eq]
    have hle : (padTo 4 b.tableData).length ≤ b.metadataRoot.length := by
      simp only [metadataRoot_eq, streams, List.length_append, List.flatMap_cons]
      omega
    omega
  obtain ⟨stream, hstream, hwidths, hcontents⟩ := read_tableData hfit htables hsmall
  refine ⟨⟨f, .empty, g, root.version, root.streams, stream.head, stream.widths, stream.tables⟩, ?_,
    ⟨hstreams, hwidths, hcontents⟩, ⟨hregion, s, hsections, hvs, hva, hraw⟩⟩
  simp only [Image.parse, hparse, Image.ofFile, bind, Except.bind, hdir, hat, hread, hstream]
  rfl

theorem parse_sound {b : Builder} (hb : b.Sound) (hsize : b.bytes.size < 0x20000000) :
    ∃ img : Image, Image.parse b.bytes = .ok img ∧ ReadBack b img := by
  obtain ⟨img, hparse, hread, -⟩ := parse_rowsFit hb.fit hsize
  exact ⟨img, hparse, hread⟩

/-! ## Widths -/

/-- Every index is two or four bytes wide; it is kept if it is small whenever it is narrow. -/
theorem lt_pow_ite {c : Prop} [Decidable c] {v : Nat} (hv : v < 0x100000000)
    (hc : ¬ c → v < 0x10000) : v < 256 ^ (if c then 4 else 2) := by
  by_cases h : c
  · rw [if_pos h]
    exact hv
  · rw [if_neg h]
    exact hc h

/-- An index into a heap is not above its size, and the size decides the width. -/
theorem lt_heap_width {wide : Bool} {size v : Nat} (hv : v ≤ size) (hsize : size < 0x20000000) :
    v < 256 ^ (if wide || decide (0x10000 ≤ size) then 4 else 2) := by
  refine lt_pow_ite (by omega) fun hnarrow => ?_
  rw [Bool.or_eq_true, not_or, decide_eq_true_eq] at hnarrow
  omega

section Widths

variable {b : Builder} {v : Nat}

/-- No stream is longer than the file. -/
theorem length_streams_le (b : Builder) :
    b.strings.size ≤ b.bytes.size ∧ b.blobs.size ≤ b.bytes.size ∧ b.guids.size ≤ b.bytes.size
      ∧ b.tableData.length ≤ b.bytes.size ∧ b.literals.size ≤ b.bytes.size := by
  have hsection := b.length_sectionData_le
  have hlength := b.length_sectionData
  have hstrings := length_le_padTo 4 b.strings.data.toList
  have hliterals := length_le_padTo 4 b.literals.data.toList
  have hblobs := length_le_padTo 4 b.blobs.data.toList
  have htables := length_le_padTo 4 b.tableData
  have hsize : ∀ a : ByteArray, a.data.toList.length = a.size := fun a => Array.length_toList
  simp only [metadataRoot_eq, streams, List.length_append, List.flatMap_cons] at hlength
  rw [hsize] at hstrings hliterals hblobs hlength
  omega

theorem string_lt_width (hsize : b.bytes.size < 0x20000000) {s : Text}
    (h : (Cell.string s).Given b v) : v < 256 ^ b.stringWidth := by
  have hle := b.length_streams_le
  have hv := Stored.size_le h (stringBytes_ne_nil s)
  exact lt_heap_width (by omega) (by omega)

theorem blob_lt_width (hsize : b.bytes.size < 0x20000000) {data : List UInt8}
    (h : (Cell.blob data).Given b v) : v < 256 ^ b.blobWidth := by
  have hle := b.length_streams_le
  have hv := Stored.size_le h (entryBytes_ne_nil data)
  exact lt_heap_width (by omega) (by omega)

theorem guid_lt_width (hsize : b.bytes.size < 0x20000000) {g : List UInt8}
    (h : (Cell.guid g).Given b v) : v < 256 ^ b.guidWidth := by
  have hle := b.length_streams_le
  have hlen := length_guidBytes g
  have hv := Stored.size_le h.2 (List.ne_nil_of_length_pos (by omega))
  rw [hlen] at hv
  -- GUIDs are counted from one, so the last index is their number.
  exact lt_heap_width (by omega) (by omega)

/-- A row takes a byte at least, so there are no more rows than bytes in the file. -/
theorem rowCount_le_size (hfit : b.RowsFit) (t : TableId) : b.rowCount t ≤ b.bytes.size := by
  have hwhole := Region.is_whole b.tableData
  have hcount := rowCount_le_length hfit hwhole.holds t
  rw [hwhole.len_eq] at hcount
  exact hcount.trans b.length_streams_le.2.2.2.1

/-- A row number fits its cell. So does one past the last row, unless the last is the last that a
narrow cell holds. -/
theorem row_lt_width (hfit : b.RowsFit) (hsize : b.bytes.size < 0x20000000) {t : TableId}
    (hv : v ≤ b.rowCount t ∨ v ≤ b.rowCount t + 1 ∧ b.rowCount t ≠ 0xFFFF) :
    v < 256 ^ b.cellWidth (.table t.code) := by
  have hcount := b.rowCount_le_size hfit t
  rw [cellWidth, rowsNumbered_code]
  exact lt_pow_ite (by omega) fun hnarrow => by omega

/-- A packed row is below the range of a coded index, as its row is among those counted. -/
theorem packed_lt_width {k : CodedKind} {t : TableId} {r : Nat} (hr : r ≤ b.rowCount t)
    (hrows : b.rowCount t < 0x1000000) (hpack : k.pack? (some t) r = some v) :
    v < 256 ^ b.cellWidth (.coded k) := by
  have hwidth : b.cellWidth (.coded k) = b.widths.column (.coded k) :=
    b.cellWidth_ofColumn (.coded k)
  have hget : b.widths.rows.get t = b.rowCount t := TableMap.get_ofFn b.rowCount t
  rw [hwidth]
  exact CodedKind.pack?_lt_width (by rw [hget]; exact hr) (by rw [hget]; exact hrows) hpack

end Widths

end Builder

/-! ## References -/

/-- The kind of cell that holds the index of what a cell stores. -/
def Cell.heap? : Cell → Option CellKind
  | .number _ => none
  | .string _ => some .string
  | .blob _ => some .blob
  | .guid _ => some .guid

/-- A number that refers to something the steps have produced, by the kind of cell that holds
such numbers: a heap index that a step gave or that a cell was stored under, a row number up to
the row count, or a coded index of one. -/
inductive Reference (steps : List Step) (results : List Int) (b : Builder) :
    CellKind → Nat → Prop
  | string {k v : Nat} {s : Text} (hstep : steps[k]? = some (.string s))
      (hresult : results[k]? = some (v : Int)) : Reference steps results b .string v
  | blob {k v : Nat} {data : List UInt8} (hstep : steps[k]? = some (.blob data))
      (hresult : results[k]? = some (v : Int)) : Reference steps results b .blob v
  | guid {k v : Nat} {g : List UInt8} (hstep : steps[k]? = some (.guid g))
      (hresult : results[k]? = some (v : Int)) : Reference steps results b .guid v
  | cell {k i j v : Nat} {t : TableId} {cells : List Cell} {row : List Nat} {x : Cell}
      {kind : CellKind} (hstep : steps[k]? = some (.row t cells))
      (hresult : results[k]? = some ((i + 1 : Nat) : Int))
      (hrow : (b.rows.get t).explicit[i]? = some row) (hcell : cells[j]? = some x)
      (hheap : x.heap? = some kind) (hv : row[j]? = some v) : Reference steps results b kind v
  | row {t : TableId} {r : Nat} (hr : (r : Int) ≤ b.rowBalance t) :
      Reference steps results b (.table t.code) r
  | coded {k : CodedKind} {t : TableId} {r v : Nat} (hpack : k.pack? (some t) r = some v)
      (hr : (r : Int) ≤ b.rowBalance t) (hrows : b.rowBalance t < 0x1000000) :
      Reference steps results b (.coded k) v

section References

variable {steps : List Step} {results : List Int} {b : Builder}

theorem Builder.rowBalance_eq (hb : b.Sound) (t : TableId) : b.rowBalance t = b.rowCount t := by
  have hpad := hb.padding t
  rw [Builder.rowBalance, Builder.rowCount, TableRows.count, TableRows.balance]
  omega

/-- The row and the result at one position belong to each other. -/
theorem done_at (hdone : List.Forall₂ (Step.Done b) steps results) {k : Nat} {s : Step} {r : Int}
    (hstep : steps[k]? = some s) (hresult : results[k]? = some r) : s.Done b r := by
  obtain ⟨hk, rfl⟩ := List.getElem?_eq_some_iff.mp hstep
  obtain ⟨hk', rfl⟩ := List.getElem?_eq_some_iff.mp hresult
  exact List.forall₂_iff_get.mp hdone |>.2 k hk hk'

/-- A heap index is below the range of its cell. -/
theorem given_lt_width (hsize : b.bytes.size < 0x20000000) {x : Cell} {kind : CellKind} {v : Nat}
    (hheap : x.heap? = some kind) (h : x.Given b v) : v < 256 ^ b.cellWidth kind := by
  cases x with
  | number n => cases hheap
  | string s =>
    cases hheap
    exact Builder.string_lt_width hsize h
  | blob data =>
    cases hheap
    exact Builder.blob_lt_width hsize h
  | guid g =>
    cases hheap
    exact Builder.guid_lt_width hsize h

/-- **No reference is truncated**: it is below the range of the cell that holds it. -/
theorem fits_of_reference (hb : b.Sound) (hdone : List.Forall₂ (Step.Done b) steps results)
    (hsize : b.bytes.size < 0x20000000) {kind : CellKind} {v : Nat}
    (h : Reference steps results b kind v) : v < 256 ^ b.cellWidth kind := by
  cases h with
  | string hstep hresult | blob hstep hresult | guid hstep hresult =>
    obtain ⟨w, hw, hgiven⟩ := done_at hdone hstep hresult
    rw [Int.ofNat_inj.mp hw]
    exact given_lt_width hsize rfl hgiven
  | @cell k i j v t cells row x kind hstep hresult hrow hcell hheap hv =>
    -- The row the step gave is the one that is looked at, so its cells are those of the step.
    obtain ⟨n, hn, i', row', hi', hrow', hgiven⟩ := done_at hdone hstep hresult
    have hi := Int.ofNat_inj.mp hn
    obtain rfl : i' = i := by omega
    obtain rfl : row' = row := Option.some.inj (hrow'.symm.trans hrow)
    obtain ⟨hj, rfl⟩ := List.getElem?_eq_some_iff.mp hcell
    obtain ⟨hj', rfl⟩ := List.getElem?_eq_some_iff.mp hv
    exact given_lt_width hsize hheap (List.forall₂_iff_get.mp hgiven |>.2 _ hj hj')
  | @row t r hr =>
    rw [Builder.rowBalance_eq hb] at hr
    exact Builder.row_lt_width hb.fit hsize (Or.inl (Int.ofNat_le.mp hr))
  | @coded k t r v hpack hr hrows =>
    rw [Builder.rowBalance_eq hb] at hr hrows
    exact Builder.packed_lt_width (Int.ofNat_le.mp hr) (Int.ofNat_lt.mp hrows) hpack

end References

/-! ## The agreement -/

/-- What the image that is read has in common with the steps it was assembled by. -/
structure Agrees (steps : List Step) (results : List Int) (b : Builder) (img : Image) : Prop where
  /-- Every table has the rows that were asked for. -/
  rows : ∀ t, ((img.table t).rows : Int) = b.rowBalance t
  /-- A row step gives the number of a row with its cells. -/
  added : ∀ (k : Nat) (t : TableId) (cells : List Cell), steps[k]? = some (.row t cells) →
    ∃ (i : Nat) (row : List Nat), results[k]? = some ((i + 1 : Nat) : Int)
      ∧ (b.rows.get t).explicit[i]? = some row ∧ row.length = cells.length
      ∧ ∀ (j n : Nat), cells[j]? = some (.number n) → row[j]? = some n
  /-- A row given cell by cell is its cells modulo the range of the columns they are read as. -/
  explicit : ∀ (t : TableId) (i : Nat) (row : List Nat), (b.rows.get t).explicit[i]? = some row →
    (img.table t).row (i + 1)
      = .ok (row.mapIdx fun j v => v % 2 ^ (8 * (img.table t).columnSize (j : Int)))
  /-- The rows behind them are zero. -/
  padded : ∀ (t : TableId) (i : Nat), (b.rows.get t).explicit.size ≤ i →
    (i : Int) < b.rowBalance t →
    (img.table t).row (i + 1) = .ok (List.replicate (cellKinds t).length 0)
  /-- A cell that holds a reference is read back unchanged. -/
  kept : ∀ (t : TableId) (i j v : Nat) (row : List Nat) (kind : CellKind),
    (b.rows.get t).explicit[i]? = some row → (cellKinds t)[j]? = some kind → row[j]? = some v →
    Reference steps results b kind v → (img.table t).column (i + 1) (j : Int) = .ok v
  /-- A cell that holds a coded reference decodes to the token of its table and row. -/
  decoded : ∀ (t u : TableId) (i j v r : Nat) (row : List Nat) (k : CodedKind),
    (b.rows.get t).explicit[i]? = some row → (cellKinds t)[j]? = some (.coded k) →
    row[j]? = some v → k.pack? (some u) r = some v → (r : Int) ≤ b.rowBalance u →
    b.rowBalance u < 0x1000000 →
    ((img.table t).column (i + 1) (j : Int)).bind k.decode = .ok (Token.make u r)

section Agreement

variable {b : Builder} {img : Image}

/-- A row given cell by cell is one of the rows that are written. -/
theorem getElem?_writtenRows (hb : b.Sound) {t : TableId} {i : Nat} {row : List Nat}
    (h : (b.rows.get t).explicit[i]? = some row) :
    i < b.rowCount t ∧ (b.writtenRows t)[i]? = some row := by
  have hbalance := Builder.rowBalance_eq hb t
  have hpad := hb.padding t
  obtain ⟨hi, -⟩ := Array.getElem?_eq_some_iff.mp h
  rw [Builder.rowBalance, TableRows.balance] at hbalance
  have hlt : i < b.rowCount t := by omega
  refine ⟨hlt, ?_⟩
  rw [Builder.writtenRows, List.getElem?_take_of_lt hlt, Array.getElem?_toList, h]

theorem hasRow_of_lt (hr : Builder.ReadBack b img) {t : TableId} {i : Nat}
    (hi : i < b.rowCount t) : (img.table t).hasRow (i + 1) = true := by
  have hrows : (img.table t).rows = b.rowCount t := hr.tables.rows t
  rw [Table.hasRow, hrows, decide_eq_true (Nat.succ_pos i), decide_eq_true (Nat.succ_le_of_lt hi)]
  rfl

theorem row_of_lt (hr : Builder.ReadBack b img) {t : TableId} {i : Nat} (hi : i < b.rowCount t) :
    (img.table t).row (i + 1) = .ok ((img.table t).cells (i + 1)) := by
  rw [Table.row, if_pos (hasRow_of_lt hr hi)]

/-- A cell below the range of its kind is read back unchanged. -/
theorem column_of_lt (hb : b.Sound) (hr : Builder.ReadBack b img) {t : TableId} {i j v : Nat}
    {row : List Nat} {kind : CellKind} (hrow : (b.rows.get t).explicit[i]? = some row)
    (hkind : (cellKinds t)[j]? = some kind) (hv : row[j]? = some v)
    (hfits : v < 256 ^ b.cellWidth kind) :
    (img.table t).column (i + 1) (j : Int) = .ok v := by
  obtain ⟨hi, hwritten⟩ := getElem?_writtenRows hb hrow
  have hsize : (b.cellWidths t)[j]? = some (b.cellWidth kind) := by
    rw [Builder.cellWidths, List.getElem?_map, hkind]
    rfl
  have hcell :=
    Builder.cell_written hb.fit (hr.tables.layout t) (hr.tables.data t) hwritten hsize hv
  rw [Nat.mod_eq_of_lt hfits] at hcell
  have hhas : (!(img.table t).hasRow (i + 1)) = false := by rw [hasRow_of_lt hr hi]; rfl
  have hcol : ¬ ((j : Int) < 0 ∨ (img.table t).layout.columns.size ≤ (j : Int).toNat) := by
    have hj := (List.getElem?_eq_some_iff.mp hsize).1
    have hcols : (img.table t).layout.columns.size = (b.cellWidths t).length := by
      rw [show (img.table t).layout = .ofSizes (b.cellWidths t) from hr.tables.layout t,
        Layout.size_columns_ofSizes]
    rw [hcols, Int.toNat_natCast]
    omega
  rw [Table.column, hhas, if_neg Bool.false_ne_true, if_neg hcol, Int.toNat_natCast]
  exact congrArg Except.ok hcell

/-- What a sound builder whose steps are done and the image read back from it agree on. -/
theorem agrees_of_readBack {steps : List Step} {results : List Int} (hb : b.Sound)
    (hdone : List.Forall₂ (Step.Done b) steps results) (hsize : b.bytes.size < 0x20000000)
    (hr : Builder.ReadBack b img) : Agrees steps results b img := by
  refine ⟨?_, ?_, ?_, ?_, ?_, ?_⟩
  · intro t
    rw [Builder.rowBalance_eq hb]
    exact congrArg Nat.cast (hr.tables.rows t)
  · intro k t cells hstep
    -- The answer of a step that adds a row is where the row was put.
    obtain ⟨hk, -⟩ := List.getElem?_eq_some_iff.mp hstep
    have hresult := List.getElem?_eq_getElem (hdone.length_eq ▸ hk)
    obtain ⟨n, hn, i, row, rfl, hrow, hgiven⟩ := done_at hdone hstep hresult
    refine ⟨i, row, by rw [hresult, hn], hrow, hgiven.length_eq.symm, ?_⟩
    intro j m hm
    obtain ⟨hj, hcell⟩ := List.getElem?_eq_some_iff.mp hm
    have hj' : j < row.length := hgiven.length_eq ▸ hj
    have hv := List.forall₂_iff_get.mp hgiven |>.2 j hj hj'
    simp only [List.get_eq_getElem, hcell] at hv
    rw [List.getElem?_eq_getElem hj']
    exact congrArg some hv
  · intro t i row hrow
    obtain ⟨hi, hwritten⟩ := getElem?_writtenRows hb hrow
    rw [row_of_lt hr hi, Image.table,
      Builder.cells_written hb.fit (hr.tables.layout t) (hr.tables.data t) hwritten]
    simp only [pow_256_eq]
  · intro t i hlo hhi
    rw [Builder.rowBalance_eq hb] at hhi
    have hi := Int.ofNat_lt.mp hhi
    rw [row_of_lt hr hi, Image.table,
      Builder.cells_padding hb.fit (hr.tables.layout t) (hr.tables.data t) hlo hi]
  · intro t i j v row kind hrow hkind hv href
    exact column_of_lt hb hr hrow hkind hv (fits_of_reference hb hdone hsize href)
  · intro t u i j v r row k hrow hkind hv hpack hle hlt
    have href : Reference steps results b (.coded k) v := .coded hpack hle hlt
    rw [column_of_lt hb hr hrow hkind hv (fits_of_reference hb hdone hsize href)]
    apply CodedKind.decode_pack? _ hpack
    rw [Token.rowSpan]
    omega

end Agreement

/-- The lengths of a sample are evaluated on its section: the file is a long list of bytes. -/
theorem Builder.size_bytes_lt_of_section {b : Builder} (h : b.sectionData.length < 2000) :
    b.bytes.size < 0x20000000 := by
  rw [Builder.size_bytes, length_padTo, Builder.fileAlignment]
  omega

/-- Steps that evaluate to a short section can be carried out and give a short file. What else is
evaluated with the section holds of their results and the builder. -/
theorem exists_build_of_short (steps : List Step) {p : List Int → Builder → Prop}
    [∀ results b, Decidable (p results b)]
    (h : ((build steps).toOption.any fun r =>
      r.2.sectionData.length < 2000 ∧ p r.1 r.2) = true) :
    ∃ (results : List Int) (b : Builder), build steps = .ok (results, b)
      ∧ b.bytes.size < 0x20000000 ∧ p results b := by
  cases hbuild : build steps with
  | error f =>
    rw [hbuild] at h
    cases h
  | ok r =>
    rw [hbuild, Except.toOption, Option.any_some, decide_eq_true_eq] at h
    exact ⟨r.1, r.2, rfl, Builder.size_bytes_lt_of_section h.1, h.2⟩

/-- **Assembler and reader agree on tables.** Proper steps, in any order and number, can be
carried out, and if the file they give is shorter than 2^29 bytes, it parses to an image that
agrees with them: on row counts, on every row given cell by cell or as padding, and on every
reference. -/
theorem parse_build (steps : List Step) (h : ∀ s ∈ steps, s.Proper) :
    ∃ (results : List Int) (b : Builder), build steps = .ok (results, b)
      ∧ (b.bytes.size < 0x20000000 →
          ∃ img : Image, Image.parse b.bytes = .ok img ∧ Agrees steps results b img) := by
  obtain ⟨results, b, hbuild, hb, hdone⟩ := build_proper h
  refine ⟨results, b, hbuild, fun hsize => ?_⟩
  obtain ⟨img, hparse, hr⟩ := Builder.parse_sound hb hsize
  exact ⟨img, hparse, agrees_of_readBack hb hdone hsize hr⟩

/-- A type reference in the first module, its space stored before it, and a row of padding. -/
def sampleSteps : List Step :=
  [.string "A", .row .module [.number 0, .string "M", .number 0, .number 0, .number 0],
    .row .typeRef [.number 4, .string "T", .number 1], .pad .typeRef 1]

theorem parse_build_sample :
    ∃ (results : List Int) (b : Builder) (img : Image), build sampleSteps = .ok (results, b)
      ∧ Image.parse b.bytes = .ok img ∧ (img.table .typeRef).rows = 2
      ∧ ((img.table .typeRef).column 1 0).bind CodedKind.resolutionScope.decode
          = .ok (Token.make .module 1)
      ∧ (img.table .typeRef).column 1 2 = .ok 1
      ∧ (img.table .typeRef).row 2 = .ok [0, 0, 0] := by
  have hproper : ∀ s ∈ sampleSteps, s.Proper := by
    simp [sampleSteps, Step.Proper, TableId.columns]
  obtain ⟨results, b, hbuild, hsize, hresult, hmodules, hbalance, hrow, hexplicit⟩ :=
    exists_build_of_short sampleSteps
      (p := fun results b => results[0]? = some 1 ∧ b.rowBalance .module = 1
        ∧ b.rowBalance .typeRef = 2 ∧ (b.rows.get .typeRef).explicit[0]? = some [4, 5, 1]
        ∧ (b.rows.get .typeRef).explicit.size = 1)
      (by decide +kernel)
  obtain ⟨_, _, hsame, h⟩ := parse_build sampleSteps hproper
  cases hbuild.symm.trans hsame
  obtain ⟨img, hparse, hagree⟩ := h hsize
  refine ⟨results, b, img, hbuild, hparse, ?_, ?_, ?_, ?_⟩
  · have hrows := hagree.rows .typeRef
    omega
  · exact hagree.decoded .typeRef .module 0 0 4 1 [4, 5, 1] .resolutionScope hrow rfl rfl rfl
      (by omega) (by omega)
  · exact hagree.kept .typeRef 0 2 1 [4, 5, 1] .string hrow rfl rfl
      (.string (k := 0) (s := "A") rfl hresult)
  · exact hagree.padded .typeRef 1 (by omega) (by omega)

end ManagedImage.Assemble
