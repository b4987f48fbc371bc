/-
The table stream of an assembled image, read back.

The stream starts with a bit for every table that has rows and with their row
counts; from these the reader computes every width and every place anew. Four
facts make it arrive at the assembler's layout. The mask is a sum of distinct
powers of two, so its bits are the present tables (`present_head`). Counts of
tables without a bit stay zero, which is what they are (`readRows_head`). The
heap flags and counts give the reader its widths (`widths_head`). And with the
same counts both have the same widths for the rows of a table, although each
computes them by rules of its own (`cellWidths_eq`).

So the place of a table is the total length of the tables before it, and
`read_tableData` puts the pieces together.
-/
import ManagedImage.Proofs.Assemble.Root
import ManagedImage.Proofs.Assemble.Rows
import Mathlib.Data.Nat.BitIndices

set_option autoImplicit false

namespace ManagedImage.Assemble.Builder

/-! ## The mask of present tables -/

/-- The numbers of the present tables, in order. -/
theorem sortedLT_present (b : Builder) : (b.presentTables.map TableId.code).SortedLT := by
  apply List.Pairwise.sortedLT
  -- The present tables are a part of all tables, which are in order.
  have hsub : (b.presentTables.map TableId.code).Sublist (TableId.all.toList.map TableId.code) :=
    List.Sublist.map _ List.filter_sublist
  rw [TableId.map_code_all] at hsub
  exact List.Pairwise.sublist hsub List.pairwise_lt_range

/-- The bits of the mask are the present tables. -/
theorem testBit_presentMask (b : Builder) (n : Nat) :
    b.presentMask.testBit n = true ↔ n ∈ b.presentTables.map TableId.code := by
  have hmask : b.presentMask = ((b.presentTables.map TableId.code).map fun i => 2 ^ i).sum := by
    rw [presentMask, List.map_map]
    rfl
  rw [← Nat.mem_bitIndices, hmask, Nat.bitIndices_sum_map_two_pow b.sortedLT_present]

theorem presentMask_lt (b : Builder) : b.presentMask < 256 ^ 8 := by
  apply Nat.lt_of_not_le
  intro hle
  -- A bit at or above 64 would be a table number.
  obtain ⟨n, hn, hbit⟩ := Nat.exists_ge_and_testBit_of_ge_two_pow
    (show 2 ^ 64 ≤ b.presentMask from hle)
  rw [testBit_presentMask, List.mem_map] at hbit
  obtain ⟨t, -, rfl⟩ := hbit
  have := t.code_lt
  omega

/-! ## The head -/

/-- The head of the stream. -/
def head (b : Builder) : TableHead :=
  ⟨2, 0, b.heapFlags, b.presentMask, (b.sorted &&& b.presentMask) % 256 ^ 8⟩

theorem heapFlags_lt (b : Builder) : b.heapFlags < 8 := by
  rw [heapFlags]
  split <;> split <;> split <;> omega

/-- The parts of the stream, each at its place. -/
theorem tableData_parts {b : Builder} {g : Region} (h : g.Holds 0 b.tableData) :
    g.Holds 4 (leBytes 1 2) ∧ g.Holds 5 (leBytes 1 0) ∧ g.Holds 6 (leBytes 1 b.heapFlags)
      ∧ g.Holds 8 (leBytes 8 b.presentMask) ∧ g.Holds 16 (leBytes 8 (b.sorted &&& b.presentMask))
      ∧ g.Holds 24 (b.presentTables.flatMap fun t => leBytes 4 (b.rowCount t))
      ∧ g.Holds (24 + 4 * b.presentTables.length)
          (TableId.all.toList.flatMap b.tableBytes) := by
  rw [tableData] at h
  have hcounts := length_flatMap_uniform (f := fun t => leBytes 4 (b.rowCount t)) b.presentTables
    (fun t _ => length_leBytes 4 (b.rowCount t))
  simp only [Region.holds_append, List.length_append, length_leBytes, Nat.zero_add, Nat.reduceAdd,
    and_assoc, hcounts] at h
  obtain ⟨-, hmajor, hminor, hheaps, -, hvalid, hsorted, hrows, htables⟩ := h
  rw [Nat.mul_comm] at htables
  exact ⟨hmajor, hminor, hheaps, hvalid, hsorted, hrows, htables⟩

theorem read_head {b : Builder} {g : Region} (h : g.Holds 0 b.tableData) :
    TableHead.read g = .ok b.head := by
  obtain ⟨hmajor, hminor, hheaps, hvalid, hsorted, hrows, -⟩ := tableData_parts h
  have hlen : ¬ g.len < TableHead.size := by
    have hfits := hrows.fits
    rw [TableHead.size]
    omega
  have hmajor2 : 2 % 256 ^ 1 = 2 := by decide
  have hminor0 : 0 % 256 ^ 1 = 0 := by decide
  have hflags : b.heapFlags % 256 ^ 1 = b.heapFlags := by
    have hlt := b.heapFlags_lt
    rw [show 256 ^ 1 = 256 from rfl, Nat.mod_eq_of_lt (by omega)]
  rw [TableHead.read, if_neg hlen, hmajor.wordD_leBytes, hminor.wordD_leBytes,
    hheaps.wordD_leBytes, hvalid.wordD_leBytes, hsorted.wordD_leBytes, hflags, hmajor2, hminor0,
    Nat.mod_eq_of_lt b.presentMask_lt, head]

/-- The tables the head names are those that have rows, in the same order. -/
theorem present_head (b : Builder) : b.head.present = b.presentTables.map TableId.code := by
  -- Both lists are increasing, so it is enough that they have the same members.
  have hsorted : b.head.present.SortedLT :=
    (List.Pairwise.sublist List.filter_sublist List.pairwise_lt_range).sortedLT
  refine hsorted.eq_of_mem_iff b.sortedLT_present fun n => ?_
  rw [TableHead.present, List.mem_filter, List.mem_range]
  constructor
  · rintro ⟨-, hbit⟩
    exact b.testBit_presentMask n |>.mp hbit
  · intro hmem
    refine ⟨?_, b.testBit_presentMask n |>.mpr hmem⟩
    obtain ⟨t, -, rfl⟩ := List.mem_map.mp hmem
    have := t.code_lt
    omega

/-! ## Row counts -/

/-- **The row counts read back**, by induction over the tables that have one. A table that is
not in the list keeps the count it had before. -/
theorem readRows_counts {g : Region} {count : TableId → Nat} (ts : List TableId) :
    ∀ (r : Reader) (rows : TableMap Nat), r.region = g → (∀ t, count t < 0x100000000) →
      g.Holds r.offset (ts.flatMap fun t => leBytes 4 (count t)) →
      ∃ rows' : TableMap Nat,
        TableHead.readRows g (ts.map TableId.code) r rows = .ok (rows', r.advance (4 * ts.length))
          ∧ ∀ t, rows'.get t = if t ∈ ts then count t else rows.get t := by
  induction ts with
  | nil =>
    intro r rows _ _ _
    exact ⟨rows, rfl, fun t => by rw [if_neg (List.not_mem_nil)]⟩
  | cons t ts ih =>
    intro r rows hr hcount h
    rw [List.flatMap_cons] at h
    have hread := Read.word_holds (r := r) (by rw [hr]; exact h.left)
    rw [pow_256_four, Nat.mod_eq_of_lt (hcount t)] at hread
    obtain ⟨rows', hrest, hget⟩ := ih (r.advance 4) (rows.set t (count t)) hr hcount
      (by simpa only [Reader.advance, length_leBytes] using h.right)
    refine ⟨rows', ?_, fun u => ?_⟩
    · have hadvance : (r.advance 4).advance (4 * ts.length) = r.advance (4 * (t :: ts).length) := by
        simp only [Reader.advance, List.length_cons, Reader.mk.injEq, true_and]
        omega
      rw [hadvance] at hrest
      rw [List.map_cons, TableHead.readRows, TableId.ofCode?_code]
      simp only [Read.u32, hread, hrest]
    · rw [hget u, TableMap.get_set]
      by_cases hu : u ∈ ts
      · rw [if_pos hu, if_pos (List.mem_cons_of_mem _ hu)]
      · by_cases htu : t = u
        · rw [if_neg hu, if_pos htu, if_pos (by rw [htu]; exact List.mem_cons_self ..), htu]
        · rw [if_neg hu, if_neg htu,
            if_neg (by rw [List.mem_cons, not_or]; exact ⟨fun h => htu h.symm, hu⟩)]

theorem mem_presentTables (b : Builder) (t : TableId) :
    t ∈ b.presentTables ↔ 0 < b.rowCount t := by
  rw [presentTables, List.mem_filter, decide_eq_true_eq]
  exact ⟨fun h => h.2, fun h => ⟨t.mem_all, h⟩⟩

/-- Each heap has a bit of the flags, which is set if its indexes are wide. -/
theorem testBit_heapFlags (b : Builder) :
    b.heapFlags.testBit 0 = decide (b.stringWidth = 4)
      ∧ b.heapFlags.testBit 1 = decide (b.guidWidth = 4)
      ∧ b.heapFlags.testBit 2 = decide (b.blobWidth = 4)
      ∧ b.heapFlags.testBit TableHead.extraData = false := by
  rw [heapFlags]
  by_cases hs : b.stringWidth = 4 <;> by_cases hg : b.guidWidth = 4 <;>
    by_cases hb : b.blobWidth = 4 <;>
    simp only [hs, hg, hb, if_true, if_false] <;> decide

/-- An index is two or four bytes wide, so the flag gives back its width. -/
theorem heapWidth_head {b : Builder} {bit width : Nat}
    (hbit : b.heapFlags.testBit bit = decide (width = 4)) (hw : width = 2 ∨ width = 4) :
    b.head.heapWidth bit = width := by
  rw [TableHead.heapWidth, head, hbit]
  rcases hw with rfl | rfl <;> rfl

/-- The flags and the row counts give the reader the widths of the heap indexes and the counts
that the builder has. -/
theorem widths_head {b : Builder} {rows : TableMap Nat} (h : ∀ t, rows.get t = b.rowCount t) :
    b.head.widths rows = b.widths := by
  have hrows : rows = TableMap.ofFn b.rowCount := by
    apply TableMap.ext_get
    intro t
    rw [h t, TableMap.get_ofFn]
  -- The builder writes the widths into the flags, and the reader takes them from there.
  have heither : ∀ c : Prop, [Decidable c] →
      (if c then 4 else 2) = 2 ∨ (if c then 4 else 2) = 4 := by
    intro c _
    by_cases hc : c
    · exact Or.inr (if_pos hc)
    · exact Or.inl (if_neg hc)
  obtain ⟨hstrings, hguid, hblob, -⟩ := b.testBit_heapFlags
  rw [TableHead.widths, TableHead.wideStrings, TableHead.wideGuids, TableHead.wideBlobs,
    heapWidth_head hstrings (heither _), heapWidth_head hguid (heither _),
    heapWidth_head hblob (heither _), hrows]
  rfl

/-! ## The tables -/

/-- What is read of the table stream: the counts, the layouts and the bytes are the builder's. -/
structure TableContents (b : Builder) (tables : TableMap Table) : Prop where
  rows : ∀ t, (tables.get t).rows = b.rowCount t
  layout : ∀ t, (tables.get t).layout = .ofSizes (b.cellWidths t)
  data : ∀ t, (tables.get t).data.Is (b.tableBytes t)

section Placing

variable {b : Builder} {g : Region}

theorem tableSize_eq (hfit : b.RowsFit) (t : TableId) :
    TableStream.tableSize b.widths (TableMap.ofFn b.widths.layout) t
      = (b.tableBytes t).length := by
  -- The size of a row in the reader's layout is the sum of its columns, which are the builder's.
  have hrow : (b.widths.layout t).rowSize = (b.cellWidths t).sum := by
    rw [cellWidths_eq]
    rfl
  have hrows : b.widths.rows.get t = b.rowCount t := TableMap.get_ofFn b.rowCount t
  rw [TableStream.tableSize, TableMap.get_ofFn, length_tableBytes t hfit, hrow, hrows]

/-- A table is found where it was written: behind the lengths of the tables before it. -/
theorem placeTable_tableData (hfit : b.RowsFit) {first : Nat}
    (h : g.Holds first (TableId.all.toList.flatMap b.tableBytes)) (t : TableId) :
    ∃ tb : Table, TableStream.placeTable g b.head b.widths (TableMap.ofFn b.widths.layout) first t
        = .ok tb
      ∧ tb.rows = b.rowCount t ∧ tb.layout = .ofSizes (b.cellWidths t)
      ∧ tb.data.Is (b.tableBytes t) := by
  -- A table's number is its position among all tables.
  have hplace := Region.Holds.flatMap _ first h t.code t t.getElem?_all
  have hstart : TableStream.tableStart b.widths (TableMap.ofFn b.widths.layout) first t
      = first + ((TableId.all.toList.take t.code).map
          fun u => (b.tableBytes u).length).sum := by
    rw [TableStream.tableStart, List.map_congr_left fun u _ => tableSize_eq hfit u]
  rw [← hstart] at hplace
  obtain ⟨w, hsub, hw⟩ := hplace.sub
  refine ⟨_, by rw [TableStream.placeTable, tableSize_eq hfit, hsub], ?_, ?_, hw⟩
  · exact TableMap.get_ofFn b.rowCount t
  · rw [cellWidths_eq]
    exact TableMap.get_ofFn b.widths.layout t

theorem rowCount_le_length (hfit : b.RowsFit)
    (h : g.Holds 0 b.tableData) (t : TableId) : b.rowCount t ≤ g.len := by
  obtain ⟨-, -, -, -, -, -, htables⟩ := tableData_parts h
  have hfits := (Region.Holds.flatMap _ _ htables t.code t t.getElem?_all).fits
  rw [length_tableBytes t hfit] at hfits
  have hle := Nat.le_mul_of_pos_right (b.rowCount t) (b.sum_cellWidths_pos t)
  omega

/-- The row counts of the stream, from the head on: those of the builder. -/
theorem readRows_head (hfit : b.RowsFit) (h : g.Holds 0 b.tableData) (hsmall : g.len < 0x20000000) :
    ∃ rows : TableMap Nat,
      TableHead.readRows g b.head.present (g.reader.seekTo TableHead.size) (TableMap.ofFn fun _ => 0)
          = .ok (rows, g.reader.seekTo (24 + 4 * b.presentTables.length))
        ∧ ∀ t, rows.get t = b.rowCount t := by
  obtain ⟨-, -, -, -, -, hcounts, -⟩ := tableData_parts h
  have hlt : ∀ t, b.rowCount t < 0x100000000 := by
    intro t
    have hle := rowCount_le_length hfit h t
    omega
  obtain ⟨rows, hread, hget⟩ := readRows_counts b.presentTables (g.reader.seekTo TableHead.size)
    (TableMap.ofFn fun _ => 0) rfl hlt hcounts
  rw [← present_head] at hread
  refine ⟨rows, hread, fun t => ?_⟩
  rw [hget t, TableMap.get_ofFn]
  by_cases hmem : t ∈ b.presentTables
  · rw [if_pos hmem]
  · rw [mem_presentTables] at hmem
    rw [if_neg (by rw [mem_presentTables]; exact hmem)]
    omega

/-- **The table stream read back.** -/
theorem read_tableData (hfit : b.RowsFit) (h : g.Holds 0 b.tableData) (hsmall : g.len < 0x20000000) :
    ∃ s : TableStream, TableStream.read g = .ok s ∧ s.widths = b.widths
      ∧ TableContents b s.tables := by
  obtain ⟨rows, hrows, hcounts⟩ := readRows_head hfit h hsmall
  obtain ⟨-, -, -, -, -, -, htables⟩ := tableData_parts h
  have hplace := placeTable_tableData hfit htables
  -- All tables are placed at once, so a table for each number is chosen first.
  choose tab htab htabRows htabLayout htabData using hplace
  have hmap : TableId.all.mapM (TableStream.placeTable g b.head b.widths
      (TableMap.ofFn b.widths.layout) (g.reader.seekTo (24 + 4 * b.presentTables.length)).offset)
        = .ok (TableId.all.map tab) := by
    show TableId.all.mapM (TableStream.placeTable g b.head b.widths
      (TableMap.ofFn b.widths.layout) (24 + 4 * b.presentTables.length)) = _
    rw [funext htab]
    exact Vector.mapM_pure tab
  have hget : ∀ t, (TableMap.mk (TableId.all.map tab)).get t = tab t := by
    intro t
    rw [TableMap.get, Fin.getElem_fin, Vector.getElem_map]
    exact congrArg tab t.ofIndex_index
  refine ⟨⟨b.head, b.widths, ⟨TableId.all.map tab⟩⟩, ?_, rfl, ?_⟩
  · have hextra := (b.testBit_heapFlags).2.2.2
    simp only [TableStream.read, bind, Except.bind, read_head h, hrows, widths_head hcounts,
      Read.skip_zero,
      show b.head.heapSizes = b.heapFlags from rfl, hextra, Bool.false_eq_true, if_false,
      hmap]
    rfl
  · refine ⟨fun t => ?_, fun t => ?_, fun t => ?_⟩
    · rw [hget t, htabRows t]
    · rw [hget t, htabLayout t]
    · rw [hget t]
      exact htabData t

end Placing

end ManagedImage.Assemble.Builder
