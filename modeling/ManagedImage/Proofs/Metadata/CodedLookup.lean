/-
Looking rows up by the token in a coded column.

A lookup never decodes anything: it encodes the token it is asked for and searches the
column for that number. It finds the rows that refer to the token because on cells whose
row part fits into a token, a cell is the code of a token exactly if it decodes to it
(`CodedKind.encode_eq_ok_iff`), and because a search finds exactly the rows that hold the
number (`Table.mem_rowsWhere`). The four lookups are one lemma with the column each of them
reads; that the schema offers that very column under the accessor's name is all that is
left for each (`accessor_eq`).
-/
import ManagedImage.Metadata.Ownership
import ManagedImage.Proofs.Metadata.Search
import ManagedImage.Proofs.Metadata.TableLayout
import ManagedImage.Proofs.Assemble.Lossless

set_option autoImplicit false

namespace ManagedImage

namespace Image

/-- What a lookup by a coded column asks of it: it is in order if its table is flagged as sorted,
and the row part of every cell fits into a token. -/
structure Searchable (img : Image) (t : TableId) (col : Nat) (k : CodedKind) : Prop where
  ascending : (img.table t).sorted = true → (img.table t).Ascending col
  small : ∀ row, (img.table t).hasRow row = true →
    (img.table t).cell row col / k.tagSpan < Token.rowSpan

/-- A row whose accessor of the given name gives a token. -/
def RefersTo (img : Image) (t : TableId) (accessor : String) (tok : Token) (row : Nat) : Prop :=
  (RowCursor.mk (img.table t) row).accessors.lookup accessor = some (.ok (.token tok))

/-- A table that a coded index of the kind can refer to holds the token. -/
def Codable (k : CodedKind) (tok : Token) : Prop := ∃ t ∈ k.tables, tok.table? = some t

/-- A lookup by a coded column: it fails for a token that the column cannot hold, and otherwise
returns the rows that refer to the token, in order. -/
structure FindsRows (img : Image) (t : TableId) (k : CodedKind) (accessor : String) (tok : Token)
    (result : Except Fault (List Nat)) : Prop where
  fails : (∃ f, result = .error f) ↔ ¬ Codable k tok
  ascending : ∀ rows, result = .ok rows → rows.Pairwise (· < ·)
  exact : ∀ rows, result = .ok rows → ∀ row, row ∈ rows ↔ img.RefersTo t accessor tok row

/-- A lookup of a single row: the first that refers to the token, zero if none does. -/
structure FindsFirst (img : Image) (t : TableId) (k : CodedKind) (accessor : String) (tok : Token)
    (result : Except Fault Nat) : Prop where
  fails : (∃ f, result = .error f) ↔ ¬ Codable k tok
  first : ∀ row, result = .ok row → IsFirst (img.RefersTo t accessor tok) row

end Image

/-! ## Accessors -/

/-- The column is the first that the schema offers under the name. -/
def TableId.Offers (t : TableId) (col : Nat) (k : CodedKind) (accessor : String) : Prop :=
  ∃ c, t.columns[col]? = some c ∧ c.kind = .coded k
    ∧ (t.columns.map RowCursor.accessorName).findIdx? (· = accessor) = some col

/-- A lookup in a list of pairs goes to the first place with the key. -/
theorem lookup_eq_of_findIdx? {β : Type} {xs : List (String × β)} {key : String} {i : Nat}
    (h : (xs.map (·.1)).findIdx? (· = key) = some i) : xs.lookup key = xs[i]?.map (·.2) := by
  induction xs generalizing i with
  | nil => cases h
  | cons x xs ih =>
    obtain ⟨name, b⟩ := x
    rw [List.map_cons, List.findIdx?_cons] at h
    by_cases heq : name = key
    · rw [if_pos (decide_eq_true heq)] at h
      obtain rfl := Option.some.inj h
      rw [heq, List.lookup_cons_self]
      rfl
    · rw [if_neg (by simpa using heq), Option.map_eq_some_iff] at h
      obtain ⟨j, hj, rfl⟩ := h
      rw [List.lookup_cons, beq_false_of_ne (Ne.symm heq), ih hj, List.getElem?_cons_succ]

namespace RowCursor

/-- The accessor of a coded column gives what the column decodes to. -/
theorem accessor_eq {c : RowCursor} {t : TableId} {col : Nat} {k : CodedKind} {accessor : String}
    (hid : c.table.id = t) (h : t.Offers col k accessor) :
    c.accessors.lookup accessor = some ((c.coded k col).map .token) := by
  obtain ⟨column, hcol, hkind, hname⟩ := h
  have hnames : c.accessors.map (·.1) = t.columns.map accessorName := by
    rw [accessors, hid]
    apply List.ext_getElem?
    intro i
    rw [List.getElem?_map, List.getElem?_mapIdx, List.getElem?_map, Option.map_map]
    rfl
  rw [lookup_eq_of_findIdx? (hnames ▸ hname), accessors, hid, List.getElem?_mapIdx, hcol]
  simp only [Option.map_some, view, hkind]

end RowCursor

/-! ## One lookup -/

namespace Image

variable {img : Image} {t : TableId} {col : Nat} {k : CodedKind} {accessor : String} {tok : Token}

theorem refersTo_iff (hid : (img.table t).id = t) (hoffers : t.Offers col k accessor) {row : Nat} :
    img.RefersTo t accessor tok row
      ↔ (img.table t).hasRow row = true ∧ k.decode ((img.table t).cell row col) = .ok tok := by
  rw [RefersTo, RowCursor.accessor_eq hid hoffers, RowCursor.coded, RowCursor.onRow]
  cases hrow : (img.table t).hasRow row with
  | false =>
    rw [if_neg Bool.false_ne_true]
    exact ⟨fun h => (nomatch h), fun h => (nomatch h.1)⟩
  | true =>
    rw [if_pos rfl]
    dsimp only
    cases k.decode ((img.table t).cell row col) with
    | error f => exact ⟨fun h => (nomatch h), fun h => (nomatch h.2)⟩
    | ok tok' =>
      refine ⟨fun h => ⟨rfl, ?_⟩, fun h => ?_⟩
      · injection h with h
        injection h with h
        injection h with h
        rw [h]
      · rw [Except.ok.inj h.2]
        rfl

/-- **A lookup by a coded column is exact.** -/
theorem findsRows_rowsByCoded (hid : (img.table t).id = t)
    (hcol : col < (img.table t).layout.columns.size) (hoffers : t.Offers col k accessor)
    (h : img.Searchable t col k) (tok : Token) :
    img.FindsRows t k accessor tok (img.rowsByCoded t k col tok) := by
  cases hencode : k.encode tok with
  | error f =>
    have hnot : ¬ Codable k tok := fun hcodable => by
      obtain ⟨v, hv⟩ := CodedKind.exists_encode_iff.mpr hcodable
      rw [hencode] at hv
      cases hv
    have hresult : img.rowsByCoded t k col tok = .error f := by rw [rowsByCoded, hencode]; rfl
    rw [hresult]
    exact ⟨⟨fun _ => hnot, fun _ => ⟨f, rfl⟩⟩, fun _ h => (nomatch h), fun _ h => (nomatch h)⟩
  | ok v =>
    have hresult : img.rowsByCoded t k col tok = .ok ((img.table t).rowsWhere col v) := by
      rw [rowsByCoded, hencode]
      rfl
    rw [hresult]
    refine ⟨⟨fun ⟨_, h⟩ => (nomatch h), fun hnot => absurd ?_ hnot⟩, fun rows hrows => ?_,
      fun rows hrows row => ?_⟩
    · exact CodedKind.exists_encode_iff.mp ⟨v, hencode⟩
    · rw [← Except.ok.inj hrows]
      exact Table.rowsWhere_pairwise hcol
    · rw [← Except.ok.inj hrows, Table.mem_rowsWhere hcol h.ascending, refersTo_iff hid hoffers,
        Table.Holds]
      -- On one row: the cell is the code of the token exactly if it decodes to the token.
      refine and_congr_right fun hrow => ?_
      rw [← CodedKind.encode_eq_ok_iff (h.small row hrow), hencode, Except.ok.injEq]
      exact eq_comm

/-- The head of rows in order is the first of them. -/
theorem isFirst_headD {rows : List Nat} {p : Nat → Prop} (hordered : rows.Pairwise (· < ·))
    (h : ∀ row, row ∈ rows ↔ p row) : IsFirst p (rows.headD 0) := by
  cases rows with
  | nil => exact .inl ⟨rfl, fun row hrow => List.not_mem_nil ((h row).mpr hrow)⟩
  | cons first rest =>
    refine .inr ⟨(h first).mp List.mem_cons_self, fun row hrow => ?_⟩
    rcases List.mem_cons.mp ((h row).mpr hrow) with rfl | hrest
    · exact Nat.le_refl _
    · exact Nat.le_of_lt ((List.pairwise_cons.mp hordered).1 row hrest)

theorem FindsRows.first {result : Except Fault (List Nat)}
    (h : img.FindsRows t k accessor tok result) :
    img.FindsFirst t k accessor tok (result.map (·.headD 0)) := by
  cases result with
  | error f => exact ⟨⟨fun _ => h.fails.mp ⟨f, rfl⟩, fun _ => ⟨f, rfl⟩⟩, fun _ h => nomatch h⟩
  | ok rows =>
    refine ⟨?_, fun row hrow => ?_⟩
    · rw [← h.fails]
      exact ⟨fun ⟨_, h⟩ => (nomatch h), fun ⟨_, h⟩ => (nomatch h)⟩
    · rw [← Except.ok.inj hrow]
      exact isFirst_headD (h.ascending rows rfl) (h.exact rows rfl)

theorem constantOf_eq (img : Image) (parent : Token) :
    img.constantOf parent
      = (img.rowsByCoded .constant .hasConstant 2 parent).map (·.headD 0) := by
  rw [constantOf]
  cases img.rowsByCoded .constant .hasConstant 2 parent <;> rfl

/-- **Lookup by coded parent is exact** in every image that parses: custom attributes, generic
parameters, accessors and constants are found by binary search or by scanning, and are those
whose own accessor decodes to the token they are looked up by. -/
theorem coded_lookups_exact {data : ByteArray} {img : Image} (h : Image.parse data = .ok img)
    (tok : Token) :
    (img.Searchable .customAttribute 0 .hasCustomAttribute →
        img.FindsRows .customAttribute .hasCustomAttribute "Parent" tok (img.customAttributes tok))
      ∧ (img.Searchable .genericParam 2 .typeOrMethodDef →
          img.FindsRows .genericParam .typeOrMethodDef "Owner" tok (img.genericParams tok))
      ∧ (img.Searchable .methodSemantics 2 .hasSemantics →
          img.FindsRows .methodSemantics .hasSemantics "Association" tok (img.semanticsOf tok))
      ∧ (img.Searchable .constant 2 .hasConstant →
          img.FindsFirst .constant .hasConstant "Parent" tok (img.constantOf tok)) := by
  have hlookup : ∀ (t : TableId) (col : Nat) (k : CodedKind) (accessor : String),
      t.Offers col k accessor → img.Searchable t col k →
      img.FindsRows t k accessor tok (img.rowsByCoded t k col tok) := by
    intro t col k accessor hoffers hsearch
    obtain ⟨hid, hcols⟩ := schema_of_parse h t
    obtain ⟨c, hc, hoffer⟩ := hoffers
    refine findsRows_rowsByCoded hid ?_ ⟨c, hc, hoffer⟩ hsearch tok
    rw [hcols]
    exact (List.getElem?_eq_some_iff.mp hc).1
  refine ⟨hlookup _ _ _ _ ⟨_, rfl, rfl, by decide⟩, hlookup _ _ _ _ ⟨_, rfl, rfl, by decide⟩,
    hlookup _ _ _ _ ⟨_, rfl, rfl, by decide⟩, fun hsearch => ?_⟩
  rw [constantOf_eq]
  exact (hlookup _ _ _ _ ⟨_, rfl, rfl, by decide⟩ hsearch).first

/-! ## Columns that are known -/

/-- The column of a table, from its first row on. -/
def ColumnIs (img : Image) (t : TableId) (col : Nat) (values : List Nat) : Prop :=
  ∀ row, (img.table t).hasRow row = true → ∃ i, row = i + 1
    ∧ values[i]? = some ((img.table t).cell row col)

/-- A column of small numbers in order can be searched, whatever the table is flagged as. -/
theorem ColumnIs.searchable {values : List Nat} (h : img.ColumnIs t col values)
    (hordered : values.Pairwise (· ≤ ·)) (hsmall : ∀ v ∈ values, v < Token.rowSpan) :
    img.Searchable t col k := by
  refine ⟨fun _ row hpos hlt => ?_, fun row hrow => ?_⟩
  · obtain ⟨i, rfl, hi⟩ := h row (Table.hasRow_iff.mpr ⟨hpos, by omega⟩)
    obtain ⟨j, hj, hnext⟩ := h (i + 1 + 1) (Table.hasRow_iff.mpr ⟨by omega, hlt⟩)
    obtain rfl : j = i + 1 := by omega
    obtain ⟨hilt, hi⟩ := List.getElem?_eq_some_iff.mp hi
    obtain ⟨hjlt, hnext⟩ := List.getElem?_eq_some_iff.mp hnext
    rw [← hi, ← hnext]
    exact List.pairwise_iff_getElem.mp hordered i (i + 1) hilt hjlt (Nat.lt_succ_self i)
  · obtain ⟨i, -, hi⟩ := h row hrow
    exact (Nat.div_le_self _ _).trans_lt (hsmall _ (List.mem_of_getElem? hi))

/-- In a column that is known, the rows that refer to a token are those whose number decodes to
it. -/
theorem ColumnIs.refersTo_iff {values : List Nat} (h : img.ColumnIs t col values)
    (hrows : (img.table t).rows = values.length) (hid : (img.table t).id = t)
    (hoffers : t.Offers col k accessor) {row : Nat} :
    img.RefersTo t accessor tok row
      ↔ ∃ i, row = i + 1 ∧ i < values.length ∧ (k.decode (values.getD i 0)).toOption = some tok := by
  have hdecode : ∀ v, k.decode v = .ok tok ↔ (k.decode v).toOption = some tok := by
    intro v
    cases k.decode v with
    | error f => exact ⟨fun h => (nomatch h), fun h => (nomatch h)⟩
    | ok tok' => rw [Except.ok.injEq, Except.toOption, Option.some.injEq]
  rw [Image.refersTo_iff hid hoffers, hdecode]
  constructor
  · rintro ⟨hrow, htok⟩
    obtain ⟨i, rfl, hi⟩ := h row hrow
    refine ⟨i, rfl, (List.getElem?_eq_some_iff.mp hi).1, ?_⟩
    rwa [List.getD_eq_getElem?_getD, hi]
  · rintro ⟨i, rfl, hlt, htok⟩
    have hrow : (img.table t).hasRow (i + 1) = true := Table.hasRow_iff.mpr ⟨by omega, by omega⟩
    obtain ⟨j, hj, hi⟩ := h (i + 1) hrow
    obtain rfl : j = i := by omega
    refine ⟨hrow, ?_⟩
    rwa [List.getD_eq_getElem?_getD, hi] at htok

/-- What a lookup in a column that is known returns. -/
theorem FindsRows.eq_ok {result : Except Fault (List Nat)} {values : List Nat}
    (h : img.FindsRows t k accessor tok result) (hcodable : Codable k tok)
    (hcolumn : img.ColumnIs t col values) (hrows : (img.table t).rows = values.length)
    (hid : (img.table t).id = t) (hoffers : t.Offers col k accessor) :
    result = .ok (((List.range values.length).filter fun i =>
      (k.decode (values.getD i 0)).toOption = some tok).map (· + 1)) := by
  cases result with
  | error f => exact absurd hcodable (h.fails.mp ⟨f, rfl⟩)
  | ok rows =>
    refine congrArg Except.ok ((h.ascending rows rfl).eq_of_mem_iff ?_ fun row => ?_)
    · exact (List.pairwise_lt_range.filter _).map _ fun _ _ hlt => Nat.succ_lt_succ hlt
    · rw [h.exact rows rfl, hcolumn.refersTo_iff hrows hid hoffers, List.mem_map]
      refine exists_congr fun i => ?_
      rw [List.mem_filter, List.mem_range, decide_eq_true_eq]
      constructor
      · rintro ⟨rfl, hlt, htok⟩
        exact ⟨⟨hlt, htok⟩, rfl⟩
      · rintro ⟨⟨hlt, htok⟩, rfl⟩
        exact ⟨rfl, hlt, htok⟩

theorem FindsFirst.eq_ok {result : Except Fault Nat} {row : Nat}
    (h : img.FindsFirst t k accessor tok result) (hcodable : Codable k tok)
    (hrow : IsFirst (img.RefersTo t accessor tok) row) : result = .ok row := by
  cases result with
  | error f => exact absurd hcodable (h.fails.mp ⟨f, rfl⟩)
  | ok row' => exact congrArg Except.ok ((h.first row' rfl).unique hrow)

end Image

namespace Assemble

variable {b : Builder} {img : Image} {t : TableId} {col : Nat}

/-- The numbers given for a column are read back. -/
theorem columnIs_of_explicit (hread : b.Reproduces img) {values : List Nat}
    (hcount : b.rowCount t = values.length)
    (hvalues : (b.rows.get t).explicit.toList.map (·[col]?) = values.map some) :
    img.ColumnIs t col values := by
  intro row hrow
  have hrows := hread.rows t
  obtain ⟨hpos, hle⟩ := Table.hasRow_iff.mp hrow
  obtain ⟨i, rfl⟩ : ∃ i, row = i + 1 := ⟨row - 1, by omega⟩
  have hi : i < values.length := by omega
  -- The row that was given, and the number in its column.
  have hget : ((b.rows.get t).explicit.toList.map (·[col]?))[i]? = some (some values[i]) := by
    rw [hvalues, List.getElem?_map, List.getElem?_eq_getElem hi]
    rfl
  rw [List.getElem?_map, Option.map_eq_some_iff] at hget
  obtain ⟨cells, hcells, hv⟩ := hget
  rw [Array.getElem?_toList] at hcells
  refine ⟨i, rfl, ?_⟩
  rw [List.getElem?_eq_getElem hi, (Table.cell_of_row (hread.row t i cells hcells)).2 col _ hv]

/-- Three custom attributes, two of the first type and one of the second; a generic parameter of
the first type, an accessor of the first event and a constant of the first field. -/
def attachedRows : List Step :=
  [.row .customAttribute [.number 35, .number 11, .number 0],
    .row .customAttribute [.number 35, .number 19, .number 0],
    .row .customAttribute [.number 67, .number 11, .number 0],
    .row .genericParam [.number 0, .number 0, .number 2, .string "T"],
    .row .methodSemantics [.number 8, .number 1, .number 2],
    .row .constant [.number 8, .number 0, .number 4, .number 0]]

end Assemble

open Assemble in
theorem Image.coded_lookups_exact_attachedRows :
    ∃ (results : List Int) (b : Builder) (img : Image), build attachedRows = .ok (results, b)
      ∧ Image.parse b.bytes = .ok img
      ∧ img.customAttributes (Token.make .typeDef 1) = .ok [1, 2]
      ∧ img.genericParams (Token.make .typeDef 1) = .ok [1]
      ∧ img.semanticsOf (Token.make .event 1) = .ok [1]
      ∧ img.constantOf (Token.make .field 1) = .ok 1
      ∧ ∃ f, img.constantOf (Token.make .typeDef 1) = .error f := by
  have hproper : ∀ s ∈ attachedRows, s.Proper := by
    simp [attachedRows, Step.Proper, TableId.columns]
  obtain ⟨results, b, img, hbuild, hparse,
      ⟨hattributes, hparams, hsemantics, hconstants, hrows⟩, hread, -⟩ :=
    reproduces_of_build hproper (p := fun b =>
      (b.rows.get .customAttribute).explicit.toList.map (·[0]?) = [some 35, some 35, some 67]
      ∧ (b.rows.get .genericParam).explicit.toList.map (·[2]?) = [some 2]
      ∧ (b.rows.get .methodSemantics).explicit.toList.map (·[2]?) = [some 2]
      ∧ (b.rows.get .constant).explicit.toList.map (·[2]?) = [some 4]
      ∧ b.rowCount .customAttribute = 3 ∧ b.rowCount .genericParam = 1
      ∧ b.rowCount .methodSemantics = 1 ∧ b.rowCount .constant = 1) (by decide +kernel)
  have hattribute : img.ColumnIs .customAttribute 0 [35, 35, 67] :=
    columnIs_of_explicit hread hrows.1 hattributes
  have hparam : img.ColumnIs .genericParam 2 [2] :=
    columnIs_of_explicit hread hrows.2.1 hparams
  have hsemantic : img.ColumnIs .methodSemantics 2 [2] :=
    columnIs_of_explicit hread hrows.2.2.1 hsemantics
  have hconstant : img.ColumnIs .constant 2 [4] :=
    columnIs_of_explicit hread hrows.2.2.2 hconstants
  have hid : ∀ t, (img.table t).id = t := fun t => (Image.schema_of_parse hparse t).1
  have htable := hread.rows
  obtain ⟨hofType, hparamsOfType, -, hconstantOfType⟩ :=
    Image.coded_lookups_exact hparse (Token.make .typeDef 1)
  obtain ⟨-, -, hofEvent, -⟩ := Image.coded_lookups_exact hparse (Token.make .event 1)
  obtain ⟨-, -, -, hofField⟩ := Image.coded_lookups_exact hparse (Token.make .field 1)
  have hconstantOffers : TableId.constant.Offers 2 .hasConstant "Parent" :=
    ⟨_, rfl, rfl, by decide⟩
  have hrefers : img.RefersTo .constant "Parent" (Token.make .field 1) 1 :=
    (hconstant.refersTo_iff ((htable _).trans hrows.2.2.2) (hid _) hconstantOffers).mpr
      ⟨0, rfl, by decide, by decide +kernel⟩
  refine ⟨results, b, img, hbuild, hparse, ?_, ?_, ?_, ?_, ?_⟩
  · rw [(hofType (hattribute.searchable (by decide) (by decide))).eq_ok ⟨.typeDef, by decide, rfl⟩
      hattribute ((htable _).trans hrows.1) (hid _) ⟨_, rfl, rfl, by decide⟩]
    exact congrArg Except.ok (by decide +kernel)
  · rw [(hparamsOfType (hparam.searchable (by decide) (by decide))).eq_ok
      ⟨.typeDef, by decide, rfl⟩ hparam ((htable _).trans hrows.2.1) (hid _) ⟨_, rfl, rfl, by decide⟩]
    exact congrArg Except.ok (by decide +kernel)
  · rw [(hofEvent (hsemantic.searchable (by decide) (by decide))).eq_ok ⟨.event, by decide, rfl⟩
      hsemantic ((htable _).trans hrows.2.2.1) (hid _) ⟨_, rfl, rfl, by decide⟩]
    exact congrArg Except.ok (by decide +kernel)
  · refine (hofField (hconstant.searchable (by decide) (by decide))).eq_ok
      ⟨.field, by decide, rfl⟩ (.inr ⟨hrefers, fun row hrow => ?_⟩)
    obtain ⟨i, rfl, -⟩ := (hconstant.refersTo_iff ((htable _).trans hrows.2.2.2) (hid _)
      hconstantOffers).mp hrow
    exact Nat.succ_le_succ (Nat.zero_le i)
  · refine (hconstantOfType (hconstant.searchable (by decide) (by decide))).fails.mpr ?_
    rintro ⟨t, ht, htok⟩
    obtain rfl : TableId.typeDef = t := by simpa using htok
    exact absurd ht (by decide)

end ManagedImage
