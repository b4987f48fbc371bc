/-
Images that read back as they were assembled.

What an assembled image agrees on with its steps has two provisos: the file must be short
enough to parse, and a number comes back modulo the range of its column. Both can be told
from the builder alone, without laying the file out. A file is as long as its contents
and a constant (`size_bytes_le`), and a row is kept if each of its numbers is below the
range of its column (`Builder.Lossless`). With both settled, rows are read back as they were
given and strings are found under their indexes (`reproduces_of_build`).
-/
import ManagedImage.Proofs.Assemble.HeapAgreement

set_option autoImplicit false

namespace ManagedImage.Assemble

namespace Builder

/-! ## How long a file is -/

/-- The bytes that the rows of all tables take. -/
def rowSpace (b : Builder) : Nat :=
  (TableId.all.toList.map fun t => b.rowCount t * (b.cellWidths t).sum).sum

/-- The bytes that were collected, headers and padding aside. -/
def contentSize (b : Builder) : Nat :=
  b.bodies.size + b.version.toList.length + b.rowSpace + b.strings.size + b.literals.size
    + b.guids.size + b.blobs.size

theorem length_flatMap_tableBytes {b : Builder} (hfit : b.RowsFit) :
    (TableId.all.toList.flatMap b.tableBytes).length = b.rowSpace := by
  rw [rowSpace]
  induction TableId.all.toList with
  | nil => rfl
  | cons t ts ih =>
    rw [List.flatMap_cons, List.length_append, ih, length_tableBytes _ hfit, List.map_cons,
      List.sum_cons]

/-- Everything around the contents takes less than two kilobytes. -/
theorem size_bytes_le {b : Builder} (hfit : b.RowsFit) :
    b.bytes.size ≤ 0x800 + b.contentSize := by
  have htables := length_flatMap_tableBytes hfit
  have hpresent : b.presentTables.length ≤ 45 := List.length_filter_le _ _
  have hcounts := length_flatMap_uniform (f := fun t => leBytes 4 (b.rowCount t)) b.presentTables
    (fun t _ => length_leBytes 4 _)
  have hdata : b.tableData.length ≤ 204 + b.rowSpace := by
    rw [tableData]
    simp only [List.length_append, length_leBytes, hcounts, htables]
    omega
  have hheaders : (streamHeaders b.streamsOffset b.streams).length = 76 :=
    (length_streamHeaders _ _).trans rfl
  have hsize : ∀ a : ByteArray, a.data.toList.length = a.size := fun a => Array.length_toList
  rw [size_bytes, length_padTo, length_sectionData, rootOffset, paddedBodies, fileAlignment]
  simp only [metadataRoot_eq, streams, versionField, List.length_append, List.flatMap_cons,
    List.flatMap_nil, length_leBytes, length_padTo, hsize, List.length_nil, List.length_singleton,
    bodiesOffset] at hheaders ⊢
  rw [hheaders, contentSize]
  omega

/-! ## Numbers that fit -/

/-- Every number of every row given cell by cell is below the range of its cell. -/
def Lossless (b : Builder) : Prop :=
  ∀ t ∈ TableId.all.toList, ∀ row ∈ (b.rows.get t).explicit.toList,
    ∀ cell ∈ (b.cellWidths t).zip row, cell.2 < 256 ^ cell.1

instance (b : Builder) : Decidable b.Lossless := by
  unfold Lossless
  infer_instance

/-- What is read of a builder's image whose numbers all fit their columns. -/
structure Reproduces (b : Builder) (img : Image) : Prop where
  /-- Every table has the rows that were asked for. -/
  rows : ∀ t, (img.table t).rows = b.rowCount t
  /-- A row is read back as it was given. -/
  row : ∀ (t : TableId) (i : Nat) (row : List Nat), (b.rows.get t).explicit[i]? = some row →
    (img.table t).row (i + 1) = .ok row

theorem reproduces_of_readBack {b : Builder} {img : Image} (hb : b.Sound) (hless : b.Lossless)
    (hr : b.ReadBack img) : b.Reproduces img := by
  refine ⟨hr.tables.rows, fun t i row hrow => ?_⟩
  obtain ⟨hi, hwritten⟩ := getElem?_writtenRows hb hrow
  have hmem : row ∈ (b.rows.get t).explicit.toList := by
    obtain ⟨hlt, rfl⟩ := Array.getElem?_eq_some_iff.mp hrow
    exact Array.getElem_mem_toList hlt
  have hlen : row.length = (b.cellWidths t).length := by
    rw [length_cellWidths]
    exact hb.fit t row hmem
  rw [row_of_lt hr hi, Image.table,
    cells_written hb.fit (hr.tables.layout t) (hr.tables.data t) hwritten]
  -- No number is above the range of its column, so none is cut off.
  refine congrArg Except.ok (List.ext_getElem (List.length_mapIdx ..) fun j hj hj' => ?_)
  have hsize : (b.cellWidths t)[j]? = some ((b.cellWidths t)[j]) :=
    List.getElem?_eq_getElem (by omega)
  have hcell := hless t t.mem_all row hmem ((b.cellWidths t)[j], row[j])
    (List.mem_of_getElem? (by
      rw [List.getElem?_zip_eq_some]
      exact ⟨hsize, List.getElem?_eq_getElem hj'⟩))
  rw [List.getElem_mapIdx, Table.columnSize_eq (hr.tables.layout t) hsize]
  exact Nat.mod_eq_of_lt hcell

end Builder

open Builder

/-- **Small images without truncation.** If proper steps collect few bytes and no number that its
column cuts off, the image they give parses, and its rows and heaps are as they were given. -/
theorem reproduces_of_build {steps : List Step} (hproper : ∀ s ∈ steps, s.Proper)
    {p : Builder → Prop} [DecidablePred p]
    (h : ((build steps).toOption.any fun r =>
      r.2.contentSize < 0x1FFFF800 ∧ r.2.Lossless ∧ p r.2) = true) :
    ∃ (results : List Int) (b : Builder) (img : Image), build steps = .ok (results, b)
      ∧ Image.parse b.bytes = .ok img ∧ p b ∧ b.Reproduces img
      ∧ HeapsAgree (journal steps) img := by
  obtain ⟨results, b, hbuild, hb, -⟩ := build_proper hproper
  rw [hbuild, Except.toOption, Option.any_some, decide_eq_true_eq] at h
  obtain ⟨hcontent, hless, hp⟩ := h
  have hsize : b.bytes.size < 0x20000000 :=
    (size_bytes_le hb.fit).trans_lt (Nat.add_lt_add_left hcontent 0x800)
  obtain ⟨img, hparse, hr⟩ := parse_sound hb hsize
  exact ⟨results, b, img, hbuild, hparse, hp, reproduces_of_readBack hb hless hr,
    heapsAgree_of_readBack (holdings_of_build hbuild) hsize hr⟩

end ManagedImage.Assemble

namespace ManagedImage.Table

/-- The cells of a row that was read. -/
theorem cell_of_row {t : Table} {row : Nat} {cells : List Nat} (h : t.row row = .ok cells) :
    t.hasRow row = true ∧ ∀ (col v : Nat), cells[col]? = some v → t.cell row col = v := by
  rw [Table.row] at h
  split at h
  case isFalse => cases h
  case isTrue hrow =>
    refine ⟨hrow, fun col v hv => ?_⟩
    rw [← Except.ok.inj h, Table.cells] at hv
    obtain ⟨hlt, rfl⟩ := List.getElem?_eq_some_iff.mp hv
    rw [List.getElem_map, List.getElem_range]

end ManagedImage.Table
