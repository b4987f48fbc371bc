/-
Looking a value up, by scanning or by binary search.

Both searches answer one question: which rows are the first and the last that hold the
value. `IsSpan` is that question, and it has one answer (`IsSpan.unique`), so the two
agree wherever both answer it. A scan always does (`scannedRange?_isSpan`). Binary search
does on a column in order (`sortedRange?_isSpan`): it stops at the first row that is not
below the value (`lowerBound_lt`), and the walk to the right ends at the last row that is
not above it.

What a search returns holds the value even on a column out of order. Binary search looks
at the row it stopped at, and the walk at each row it goes over (`sortedRange?_holds`).
-/
import Mathlib.Data.List.Sort
import ManagedImage.Metadata.Table

set_option autoImplicit false

namespace ManagedImage

/-! ## First and last -/

/-- The first and the last number with a property, if any number has it. -/
def IsSpan (p : Nat → Prop) : Option (Nat × Nat) → Prop
  | none => ∀ n, ¬ p n
  | some (first, last) => p first ∧ p last ∧ ∀ n, p n → first ≤ n ∧ n ≤ last

/-- The first number with a property, zero if no number has it. -/
def IsFirst (p : Nat → Prop) (n : Nat) : Prop :=
  (n = 0 ∧ ∀ m, ¬ p m) ∨ (p n ∧ ∀ m, p m → n ≤ m)

/-- Every property of numbers has a first one, or zero if no number has it. -/
theorem exists_isFirst (p : Nat → Prop) : ∃ n, IsFirst p n := by
  classical
  by_cases h : ∃ n, p n
  · exact ⟨Nat.find h, .inr ⟨Nat.find_spec h, fun _ hm => Nat.find_min' h hm⟩⟩
  · exact ⟨0, .inl ⟨rfl, not_exists.mp h⟩⟩

namespace IsFirst

variable {p : Nat → Prop} {n m : Nat}

theorem unique (hn : IsFirst p n) (hm : IsFirst p m) : n = m := by
  rcases hn with ⟨rfl, hnone⟩ | ⟨hn, hall⟩
  · rcases hm with ⟨rfl, -⟩ | ⟨hm, -⟩
    · rfl
    · exact absurd hm (hnone m)
  · rcases hm with ⟨-, hnone⟩ | ⟨hm, hall'⟩
    · exact absurd hn (hnone n)
    · exact Nat.le_antisymm (hall m hm) (hall' n hn)

/-- A property that some number has, the first one has. -/
theorem holds (h : IsFirst p n) (hm : p m) : p n := by
  rcases h with ⟨-, hnone⟩ | ⟨hn, -⟩
  · exact absurd hm (hnone m)
  · exact hn

/-- No number before the first one has the property. -/
theorem not_of_lt (h : IsFirst p n) (hlt : m < n) : ¬ p m := by
  rcases h with ⟨rfl, hnone⟩ | ⟨-, hall⟩
  · exact hnone m
  · exact fun hm => Nat.not_le_of_lt hlt (hall m hm)

end IsFirst

namespace IsSpan

variable {p q : Nat → Prop} {r s : Option (Nat × Nat)}

theorem congr (h : ∀ n, p n ↔ q n) (hr : IsSpan p r) : IsSpan q r := by
  rwa [← show p = q from funext fun n => propext (h n)]

theorem unique (hr : IsSpan p r) (hs : IsSpan p s) : r = s := by
  rcases r with _ | ⟨first, last⟩ <;> rcases s with _ | ⟨first', last'⟩
  · rfl
  · exact absurd hs.1 (hr first')
  · exact absurd hr.1 (hs first)
  · obtain ⟨hfirst, hlast, hall⟩ := hr
    obtain ⟨hfirst', hlast', hall'⟩ := hs
    have h₁ := hall first' hfirst'
    have h₂ := hall' first hfirst
    have h₃ := hall last' hlast'
    have h₄ := hall' last hlast
    rw [show first = first' by omega, show last = last' by omega]

/-- A number that no other is behind becomes the last one, and the first if there was none. -/
theorem snoc {m : Nat} (h : IsSpan p r) (hm : ∀ n, p n → n ≤ m) :
    IsSpan (fun n => p n ∨ n = m) (some ((r.map (·.1)).getD m, m)) := by
  rcases r with _ | ⟨first, last⟩
  · refine ⟨.inr rfl, .inr rfl, ?_⟩
    rintro n (hn | rfl)
    · exact absurd hn (h n)
    · exact ⟨Nat.le_refl _, Nat.le_refl _⟩
  · obtain ⟨hfirst, hlast, hall⟩ := h
    refine ⟨.inl hfirst, .inr rfl, ?_⟩
    rintro n (hn | rfl)
    · exact ⟨(hall n hn).1, hm n hn⟩
    · exact ⟨hm first hfirst, Nat.le_refl _⟩

theorem isFirst (h : IsSpan p r) : IsFirst p ((r.map (·.1)).getD 0) := by
  rcases r with _ | ⟨first, last⟩
  · exact .inl ⟨rfl, h⟩
  · exact .inr ⟨h.1, fun n hn => (h.2.2 n hn).1⟩

end IsSpan

namespace Table

/-! ## Rows that hold a value -/

/-- A row that exists and holds a value in a column. -/
def Holds (t : Table) (col value row : Nat) : Prop :=
  t.hasRow row = true ∧ t.cell row col = value

/-- No row of a column is below the row before it. -/
def Ascending (t : Table) (col : Nat) : Prop :=
  ∀ row, 0 < row → row < t.rows → t.cell row col ≤ t.cell (row + 1) col

/-- A table flagged as sorted, or not. -/
def flagged (t : Table) (sorted : Bool) : Table := { t with sorted := sorted }

variable {t : Table} {col value row : Nat}

theorem hasRow_iff : t.hasRow row = true ↔ 0 < row ∧ row ≤ t.rows := by
  rw [hasRow, Bool.and_eq_true, decide_eq_true_eq, decide_eq_true_eq]

theorem mem_rowNumbers : row ∈ t.rowNumbers ↔ 0 < row ∧ row ≤ t.rows := by
  rw [rowNumbers, List.mem_range'_1]
  omega

theorem Holds.row_le (h : t.Holds col value row) : 0 < row ∧ row ≤ t.rows := hasRow_iff.mp h.1

theorem Ascending.le (h : t.Ascending col) {row row' : Nat} (hpos : 0 < row) (hle : row ≤ row')
    (hrows : row' ≤ t.rows) : t.cell row col ≤ t.cell row' col := by
  induction row', hle using Nat.le_induction with
  | base => exact Nat.le_refl _
  | succ n hle ih => exact (ih (by omega)).trans (h n (by omega) (by omega))

theorem mem_scan : row ∈ t.scan col value ↔ t.Holds col value row := by
  rw [scan, List.mem_filter, mem_rowNumbers, Holds, hasRow_iff, decide_eq_true_eq]

theorem scan_pairwise : (t.scan col value).Pairwise (· < ·) :=
  (List.pairwise_lt_range' (s := 1) (n := t.rows)).filter _

/-! ## A scan -/

/-- After the rows up to `n`, a scan has the first and the last of them that hold the value. -/
theorem foldl_isSpan (n : Nat) (hn : n ≤ t.rows) :
    IsSpan (fun row => row ≤ n ∧ t.Holds col value row)
      ((List.range' 1 n).foldl (fun found row =>
        if t.cell row col = value then some ((found.map (·.1)).getD row, row) else found) none) := by
  induction n with
  | zero =>
    rintro row ⟨hle, hholds⟩
    have hpos := hholds.row_le.1
    omega
  | succ n ih =>
    have hrow : t.hasRow (n + 1) = true := hasRow_iff.mpr ⟨by omega, hn⟩
    rw [List.range'_1_concat, List.foldl_append, List.foldl_cons, List.foldl_nil, Nat.add_comm 1 n]
    specialize ih (by omega)
    by_cases hcell : t.cell (n + 1) col = value
    -- The new row is the last that holds the value, and the first if there was none before.
    · rw [if_pos hcell]
      refine (ih.snoc fun row hbefore => Nat.le_succ_of_le hbefore.1).congr fun row => ?_
      constructor
      · rintro (⟨hle, hholds⟩ | rfl)
        · exact ⟨Nat.le_succ_of_le hle, hholds⟩
        · exact ⟨Nat.le_refl _, hrow, hcell⟩
      · rintro ⟨hle, hholds⟩
        by_cases heq : row = n + 1
        · exact .inr heq
        · exact .inl ⟨by omega, hholds⟩
    · rw [if_neg hcell]
      refine ih.congr fun row => and_congr_left fun hholds => ?_
      have hne : row ≠ n + 1 := fun h => hcell (h ▸ hholds.2)
      omega

theorem scannedRange?_isSpan : IsSpan (t.Holds col value) (t.scannedRange? col value) :=
  (foldl_isSpan t.rows (Nat.le_refl _)).congr fun _ =>
    ⟨fun h => h.2, fun h => ⟨h.row_le.2, h⟩⟩

/-! ## Binary search -/

section LowerBound

variable {p : Nat → Bool} {lo hi : Nat}

theorem lowerBound_le (h : lo ≤ hi) : lowerBound p lo hi ≤ hi := by
  fun_induction lowerBound p lo hi with
  | case1 lo hi hlt mid hmid ih => exact (ih (by omega)).trans (by omega)
  | case2 lo hi hlt mid hmid ih => exact ih (by omega)
  | case3 lo hi hlt => exact h

/-- Whatever the property is, the search stops at a place that has it, or at the end. -/
theorem lowerBound_holds (h : lowerBound p lo hi < hi) : p (lowerBound p lo hi) = true := by
  fun_induction lowerBound p lo hi with
  | case1 lo hi hlt mid hmid ih =>
    by_cases hend : lowerBound p lo mid < mid
    · exact ih hend
    · have hle : lowerBound p lo mid ≤ mid := lowerBound_le (by omega)
      rwa [show lowerBound p lo mid = mid by omega]
  | case2 lo hi hlt mid hmid ih => exact ih h
  | case3 lo hi hlt => omega

/-- No place before the one the search stops at has the property, if it stays once it holds. -/
theorem lowerBound_lt (hmono : ∀ i j, i ≤ j → j < hi → p i = true → p j = true) {i : Nat}
    (hbegin : lo ≤ i) (hbefore : i < lowerBound p lo hi) : p i = false := by
  fun_induction lowerBound p lo hi with
  | case1 lo hi hlt mid hmid ih =>
    exact ih (fun i j hij hj => hmono i j hij (by omega)) hbegin hbefore
  | case2 lo hi hlt mid hmid ih =>
    by_cases hside : i ≤ mid
    · exact Bool.eq_false_iff.mpr fun hp => hmid (hmono i mid hside (by omega) hp)
    · exact ih hmono (by omega) hbefore
  | case3 lo hi hlt => omega

end LowerBound

/-- The walk to the right goes over rows that hold the value, and stops before one that does
not. -/
theorem runEnd_spec (h : t.Holds col value row) :
    row ≤ t.runEnd col value row
      ∧ (∀ r, row ≤ r → r ≤ t.runEnd col value row → t.Holds col value r)
      ∧ ¬ t.Holds col value (t.runEnd col value row + 1) := by
  fun_induction runEnd t col value row with
  | case1 row hnext ih =>
    obtain ⟨hle, hrun, hend⟩ := ih ⟨hasRow_iff.mpr ⟨by omega, hnext.1⟩, hnext.2⟩
    refine ⟨by omega, fun r hr hr' => ?_, hend⟩
    by_cases heq : r = row
    · rwa [heq]
    · exact hrun r (by omega) hr'
  | case2 row hnext =>
    refine ⟨Nat.le_refl _, fun r hr hr' => ?_, fun hafter => ?_⟩
    · rwa [show r = row by omega]
    · exact hnext ⟨hafter.row_le.2, hafter.2⟩

/-- Where binary search finds something, it has stopped at a row that holds the value. -/
theorem sortedRange?_eq_some {first last : Nat} (h : t.sortedRange? col value = some (first, last)) :
    t.Holds col value first ∧ last = t.runEnd col value first
      ∧ first = lowerBound (fun i => value ≤ t.cell (i + 1) col) 0 t.rows + 1 := by
  simp only [sortedRange?] at h
  split at h
  case isTrue hstop =>
    obtain ⟨rfl, rfl⟩ := Prod.mk.inj (Option.some.inj h)
    exact ⟨⟨hasRow_iff.mpr ⟨by omega, hstop.1⟩, hstop.2⟩, rfl, rfl⟩
  case isFalse => cases h

/-- All rows between the two that binary search returns hold the value, in order or not. -/
theorem sortedRange?_holds {first last : Nat} (h : t.sortedRange? col value = some (first, last)) :
    t.Holds col value first ∧ ∀ row, first ≤ row → row ≤ last → t.Holds col value row := by
  obtain ⟨hfirst, rfl, -⟩ := sortedRange?_eq_some h
  exact ⟨hfirst, (runEnd_spec hfirst).2.1⟩

/-- On a column in order, the rows before the place where binary search stops are below the
value. -/
theorem Ascending.lt_of_le_lowerBound (h : t.Ascending col) (hpos : 0 < row)
    (hle : row ≤ lowerBound (fun i => value ≤ t.cell (i + 1) col) 0 t.rows) :
    t.cell row col < value := by
  have hmono : ∀ i j, i ≤ j → j < t.rows → decide (value ≤ t.cell (i + 1) col) = true →
      decide (value ≤ t.cell (j + 1) col) = true := fun i j hij hj hp =>
    decide_eq_true ((of_decide_eq_true hp).trans (h.le (by omega) (by omega) hj))
  have hbelow := lowerBound_lt hmono (Nat.zero_le (row - 1)) (by omega)
  rw [decide_eq_false_iff_not, Nat.sub_add_cancel hpos] at hbelow
  omega

theorem sortedRange?_isSpan (h : t.Ascending col) :
    IsSpan (t.Holds col value) (t.sortedRange? col value) := by
  cases hfound : t.sortedRange? col value with
  | some run =>
    obtain ⟨first, last⟩ := run
    obtain ⟨hfirst, rfl, hstop⟩ := sortedRange?_eq_some hfound
    obtain ⟨hle, hrun, hend⟩ := runEnd_spec hfirst
    refine ⟨hfirst, hrun _ hle (Nat.le_refl _), fun row hrow => ⟨?_, ?_⟩⟩
    · by_contra hbefore
      have hlt : t.cell row col < value := h.lt_of_le_lowerBound hrow.row_le.1 (by omega)
      exact Nat.ne_of_lt hlt hrow.2
    · -- The row behind the run would lie between two rows that hold the value.
      by_contra hbehind
      have hlast := hrun _ hle (Nat.le_refl _)
      have hrows := hrow.row_le.2
      have hlower := h.le hlast.row_le.1 (Nat.le_add_right _ 1) (by omega)
      have hupper : t.cell (t.runEnd col value first + 1) col ≤ t.cell row col :=
        h.le (Nat.succ_pos _) (Nat.lt_of_not_le hbehind) hrows
      refine hend ⟨hasRow_iff.mpr ⟨by omega, by omega⟩, ?_⟩
      rw [hlast.2] at hlower
      rw [hrow.2] at hupper
      omega
  | none =>
    intro row hrow
    simp only [sortedRange?] at hfound
    split at hfound
    case isTrue => cases hfound
    case isFalse hstop =>
      have hrow_le := hrow.row_le
      have hstop_le := lowerBound_le (p := fun i => value ≤ t.cell (i + 1) col) (Nat.zero_le t.rows)
      by_cases hside : row ≤ lowerBound (fun i => value ≤ t.cell (i + 1) col) 0 t.rows
      · exact Nat.ne_of_lt (h.lt_of_le_lowerBound hrow_le.1 hside) hrow.2
      · -- From there on, the rows are above the value.
        have hlt : lowerBound (fun i => value ≤ t.cell (i + 1) col) 0 t.rows < t.rows := by omega
        have hvalue := of_decide_eq_true (lowerBound_holds hlt)
        have hupper := h.le (Nat.succ_pos _) (Nat.lt_of_not_le hside) hrow_le.2
        rw [hrow.2] at hupper
        exact hstop ⟨by omega, Nat.le_antisymm hupper hvalue⟩

/-! ## The lookups -/

theorem searchRange?_eq (hcol : col < t.layout.columns.size) :
    t.searchRange? col value
      = if t.sorted then t.sortedRange? col value else t.scannedRange? col value := by
  rw [searchRange?, if_neg (by omega), Int.toNat_natCast]

/-- A search answers its question unless the table is flagged as sorted and is not. -/
theorem searchRange?_isSpan (hcol : col < t.layout.columns.size)
    (h : t.sorted = true → t.Ascending col) :
    IsSpan (t.Holds col value) (t.searchRange? col value) := by
  rw [searchRange?_eq hcol]
  split
  case isTrue hsorted => exact sortedRange?_isSpan (h hsorted)
  case isFalse => exact scannedRange?_isSpan

theorem rowsWhere_of_sorted (hcol : col < t.layout.columns.size) (hsorted : t.sorted = true) :
    t.rowsWhere col value
      = ((t.sortedRange? col value).map fun run => List.range' run.1 (run.2 + 1 - run.1)).getD [] := by
  rw [rowsWhere, if_pos hsorted, searchRange?_eq hcol, if_pos hsorted]
  cases t.sortedRange? col value <;> rfl

theorem rowsWhere_of_not_sorted (hsorted : t.sorted = false) :
    t.rowsWhere col value = t.scan col value := by
  rw [rowsWhere, if_neg (by rw [hsorted]; exact Bool.false_ne_true)]

/-- Every row that is returned holds the value, whether or not the table is sorted. -/
theorem holds_of_mem_rowsWhere (hcol : col < t.layout.columns.size)
    (h : row ∈ t.rowsWhere col value) : t.Holds col value row := by
  cases hsorted : t.sorted with
  | false => exact mem_scan.mp (rowsWhere_of_not_sorted hsorted ▸ h)
  | true =>
    rw [rowsWhere_of_sorted hcol hsorted] at h
    cases hfound : t.sortedRange? col value with
    | none =>
      rw [hfound] at h
      cases h
    | some run =>
      rw [hfound, Option.map_some, Option.getD_some, List.mem_range'_1] at h
      exact (sortedRange?_holds hfound).2 row h.1 (by omega)

theorem holds_search (hcol : col < t.layout.columns.size) (h : t.search col value ≠ 0) :
    t.Holds col value (t.search col value) := by
  rw [search] at h ⊢
  cases hfound : t.searchRange? col value with
  | none =>
    rw [hfound] at h
    exact absurd rfl h
  | some run =>
    rw [searchRange?_eq hcol] at hfound
    cases hsorted : t.sorted with
    | true =>
      rw [hsorted, if_pos rfl] at hfound
      exact (sortedRange?_holds hfound).1
    | false =>
      rw [hsorted, if_neg Bool.false_ne_true] at hfound
      have hspan : IsSpan (t.Holds col value) (some run) := hfound ▸ scannedRange?_isSpan
      exact hspan.1

theorem rowsWhere_pairwise (hcol : col < t.layout.columns.size) :
    (t.rowsWhere col value).Pairwise (· < ·) := by
  cases hsorted : t.sorted with
  | false =>
    rw [rowsWhere_of_not_sorted hsorted]
    exact scan_pairwise
  | true =>
    rw [rowsWhere_of_sorted hcol hsorted]
    cases t.sortedRange? col value with
    | none => exact .nil
    | some run => exact List.pairwise_lt_range'

theorem mem_rowsWhere (hcol : col < t.layout.columns.size) (h : t.sorted = true → t.Ascending col) :
    row ∈ t.rowsWhere col value ↔ t.Holds col value row := by
  refine ⟨holds_of_mem_rowsWhere hcol, fun hrow => ?_⟩
  cases hsorted : t.sorted with
  | false =>
    rw [rowsWhere_of_not_sorted hsorted]
    exact mem_scan.mpr hrow
  | true =>
    have hspan : IsSpan (t.Holds col value) (t.sortedRange? col value) :=
      sortedRange?_isSpan (h hsorted)
    rw [rowsWhere_of_sorted hcol hsorted]
    cases hfound : t.sortedRange? col value with
    | none =>
      rw [hfound] at hspan
      exact absurd hrow (hspan row)
    | some run =>
      rw [hfound] at hspan
      have hbetween := hspan.2.2 row hrow
      rw [Option.map_some, Option.getD_some, List.mem_range'_1]
      omega

/-- **Sorted and linear lookup agree.** What a lookup in a column returns holds the value, even on
a table that is flagged as sorted and is not. On a column in order, binary search and scan return
the same: the first row that holds the value or zero, the first and the last such row, and all
such rows in order. -/
theorem lookups_agree (t : Table) (col value : Nat) (hcol : col < t.layout.columns.size) :
    (t.search col value ≠ 0 → t.Holds col value (t.search col value))
      ∧ (∀ row ∈ t.rowsWhere col value, t.Holds col value row)
      ∧ (t.Ascending col →
          (t.flagged true).searchRange? col value = (t.flagged false).searchRange? col value
            ∧ (t.flagged true).search col value = (t.flagged false).search col value
            ∧ (t.flagged true).rowsWhere col value = (t.flagged false).rowsWhere col value
            ∧ ∀ sorted : Bool,
              IsSpan (t.Holds col value) ((t.flagged sorted).searchRange? col value)
                ∧ IsFirst (t.Holds col value) ((t.flagged sorted).search col value)
                ∧ ((t.flagged sorted).rowsWhere col value).Pairwise (· < ·)
                ∧ ∀ row, row ∈ (t.flagged sorted).rowsWhere col value ↔ t.Holds col value row) := by
  refine ⟨holds_search hcol, fun row => holds_of_mem_rowsWhere hcol, fun h => ?_⟩
  -- The flag is no part of what a row holds, so all of this is about one property of rows.
  have hspan : ∀ sorted, IsSpan (t.Holds col value) ((t.flagged sorted).searchRange? col value) :=
    fun sorted => searchRange?_isSpan (t := t.flagged sorted) hcol fun _ => h
  have hmem : ∀ sorted row, row ∈ (t.flagged sorted).rowsWhere col value ↔ t.Holds col value row :=
    fun sorted row => mem_rowsWhere (t := t.flagged sorted) hcol fun _ => h
  have hordered : ∀ sorted, ((t.flagged sorted).rowsWhere col value).Pairwise (· < ·) :=
    fun sorted => rowsWhere_pairwise (t := t.flagged sorted) hcol
  have hrange := (hspan true).unique (hspan false)
  refine ⟨hrange, ?_, ?_, fun sorted =>
    ⟨hspan sorted, (hspan sorted).isFirst, hordered sorted, hmem sorted⟩⟩
  · rw [search, search, hrange]
  · exact (hordered true).eq_of_mem_iff (hordered false) fun row =>
      (hmem true row).trans (hmem false row).symm

/-- Four interfaces of the types 1, 3, 3 and 7: both kinds of lookup find the second and the third
row for type 3, and nothing for type 4. -/
theorem lookups_agree_interfaces :
    ∃ t : Table, t.rows = 4 ∧ 0 < t.layout.columns.size ∧ t.Ascending 0
      ∧ ∀ sorted, (t.flagged sorted).searchRange? (0 : Nat) 3 = some (2, 3)
        ∧ (t.flagged sorted).rowsWhere 0 3 = [2, 3]
        ∧ (t.flagged sorted).search (0 : Nat) 4 = 0 := by
  let t : Table := ⟨.interfaceImpl, 4, true, 2, .ofSizes [2, 2],
    .whole ⟨#[1, 0, 4, 0, 3, 0, 4, 0, 3, 0, 8, 0, 7, 0, 4, 0]⟩⟩
  have hcol : 0 < t.layout.columns.size := by decide
  have hkeys : ∀ row ∈ t.rowNumbers, row < 4 → t.cell row 0 ≤ t.cell (row + 1) 0 := by
    decide +kernel
  have hsorted : t.Ascending 0 := fun row hpos hlt =>
    hkeys row (mem_rowNumbers.mpr ⟨hpos, Nat.le_of_lt hlt⟩) hlt
  have hthree : ∀ row ∈ t.rowNumbers, t.cell row 0 = 3 → 2 ≤ row ∧ row ≤ 3 := by decide +kernel
  have hfour : ∀ row ∈ t.rowNumbers, t.cell row 0 ≠ 4 := by decide +kernel
  have hspan : IsSpan (t.Holds 0 3) (some (2, 3)) :=
    ⟨⟨by decide, by decide +kernel⟩, ⟨by decide, by decide +kernel⟩, fun row hrow =>
      hthree row (mem_rowNumbers.mpr hrow.row_le) hrow.2⟩
  refine ⟨t, rfl, hcol, hsorted, fun sorted => ?_⟩
  obtain ⟨hrange, -, hordered, hrows⟩ := ((lookups_agree t 0 3 hcol).2.2 hsorted).2.2.2 sorted
  obtain ⟨-, hfirst, -⟩ := ((lookups_agree t 0 4 hcol).2.2 hsorted).2.2.2 sorted
  refine ⟨hrange.unique hspan, hordered.eq_of_mem_iff (by decide) fun row => ?_, ?_⟩
  · rw [hrows, List.mem_pair]
    refine ⟨fun hrow => ?_, ?_⟩
    · have hbetween := hspan.2.2 row hrow
      omega
    · rintro (rfl | rfl)
      exacts [hspan.1, hspan.2.1]
  · rcases hfirst with ⟨hzero, -⟩ | ⟨hrow, -⟩
    · exact hzero
    · exact absurd hrow.2 (hfour _ (mem_rowNumbers.mpr hrow.row_le))

end Table

end ManagedImage
