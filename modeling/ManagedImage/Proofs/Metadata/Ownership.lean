/-
Owners and the runs they own.

A row of an owning table names only the first of its members. Two functions turn that
into a relation: `Image.owned` goes from the owner to a run of members, cut off where
the next owner starts and at the end of the member table; `Image.declaring` goes back,
to the last owner that starts at or before the member. What makes them agree is that
both are the same condition on the two neighbouring starts (`owns_iff`): the last owner
that starts at or before a member is followed by one that starts after it, however the
starts are ordered. Only that no *other* owner has the member too needs them in order.

Two things are outside this agreement. A token has twenty-four bits for the row, so an
owner beyond them comes back under another name. And the upper end of a run is clipped to
the rows that exist, but its start is not: a null start makes a run begin at row zero.
-/
import ManagedImage.Metadata.Ownership
import ManagedImage.Proofs.Assemble.Lossless

set_option autoImplicit false

namespace ManagedImage

namespace Image

/-- The first member that a row of the owning table names. -/
def firstMember (img : Image) (l : OwnerList) (row : Nat) : Nat :=
  (img.table l.owner).cell row l.column

/-- The run of an owner contains a row. -/
def Owns (img : Image) (l : OwnerList) (owner row : Nat) : Prop :=
  ∃ run, img.owned l owner = .ok run ∧ run.contains row = true

/-- No owner starts before the one in front of it. -/
def InOrder (img : Image) (l : OwnerList) : Prop :=
  ∀ row, 0 < row → row < (img.table l.owner).rows →
    img.firstMember l row ≤ img.firstMember l (row + 1)

end Image

section Runs

variable {img : Image} {l : OwnerList}

/-! ## Runs -/

/-- The run of an owner, in terms of its start and the next one. -/
theorem owned_eq_ok {row : Nat} {run : RowRange} : img.owned l row = .ok run ↔
    (0 < row ∧ row ≤ (img.table l.owner).rows) ∧ run.table = l.child
      ∧ run.start = min (img.firstMember l row) ((img.table l.child).rows + 1)
      ∧ run.stop = max (if row < (img.table l.owner).rows
          then min (img.firstMember l (row + 1)) ((img.table l.child).rows + 1)
          else (img.table l.child).rows + 1) run.start := by
  unfold Image.owned Table.hasRow Image.firstMember
  by_cases hrow : 0 < row ∧ row ≤ (img.table l.owner).rows
  · simp only [hrow, decide_true, Bool.and_self, Bool.not_true, Bool.false_eq_true, if_false,
      Except.ok.injEq, true_and, and_self]
    constructor
    · rintro rfl
      exact ⟨rfl, rfl, rfl⟩
    · rintro ⟨htable, hstart, hstop⟩
      rw [hstart] at hstop
      cases run
      simp only [RowRange.mk.injEq]
      exact ⟨htable.symm, hstart.symm, hstop.symm⟩
  · have hnot : (!(decide (0 < row) && decide (row ≤ (img.table l.owner).rows))) = true := by
      simp only [Bool.not_eq_true', Bool.and_eq_false_iff, decide_eq_false_iff_not]
      omega
    simp only [hnot, if_true, reduceCtorEq, hrow, false_and]

theorem contains_iff {run : RowRange} {row : Nat} :
    run.contains row = true ↔ run.start ≤ row ∧ row < run.stop := by
  rw [RowRange.contains, Bool.and_eq_true, decide_eq_true_eq, decide_eq_true_eq]

variable (img l) in
theorem owned_exists (row : Nat) (hrow : 0 < row ∧ row ≤ (img.table l.owner).rows) :
    ∃ run, img.owned l row = .ok run :=
  let start := min (img.firstMember l row) ((img.table l.child).rows + 1)
  ⟨⟨l.child, start, max _ start⟩, owned_eq_ok.mpr ⟨hrow, rfl, rfl, rfl⟩⟩

/-- **Owning is a condition on two neighbouring starts**: the owner starts at or before the
member, and the next one, if there is one, after it. -/
theorem owns_iff {owner row : Nat} (hrow : row ≤ (img.table l.child).rows) :
    img.Owns l owner row ↔ (0 < owner ∧ owner ≤ (img.table l.owner).rows)
      ∧ img.firstMember l owner ≤ row
      ∧ (owner < (img.table l.owner).rows → row < img.firstMember l (owner + 1)) := by
  constructor
  · rintro ⟨run, hrun, hin⟩
    obtain ⟨howner, -, hstart, hstop⟩ := owned_eq_ok.mp hrun
    rw [contains_iff] at hin
    refine ⟨howner, by omega, fun hlt => ?_⟩
    rw [if_pos hlt] at hstop
    omega
  · rintro ⟨howner, hle, hnext⟩
    obtain ⟨run, hrun⟩ := owned_exists img l owner howner
    refine ⟨run, hrun, contains_iff.mpr ?_⟩
    obtain ⟨-, -, hstart, hstop⟩ := owned_eq_ok.mp hrun
    by_cases hlt : owner < (img.table l.owner).rows
    · have hafter := hnext hlt
      rw [if_pos hlt] at hstop
      omega
    · rw [if_neg hlt] at hstop
      omega

/-! ## From a member to its owner -/

/-- Keeping the latest number with a property keeps the last one. -/
theorem foldl_latest (p : Nat → Prop) [DecidablePred p] (n : Nat) :
    ∃ found, (List.range' 1 n).foldl (fun found row => if p row then row else found) 0 = found
      ∧ (found = 0 ∨ (0 < found ∧ found ≤ n ∧ p found))
      ∧ ∀ row, found < row → row ≤ n → ¬ p row := by
  induction n with
  | zero => exact ⟨0, rfl, Or.inl rfl, fun row _ _ => by omega⟩
  | succ n ih =>
    obtain ⟨found, hfold, hfound, hlater⟩ := ih
    rw [List.range'_concat, List.foldl_append, hfold, List.foldl_cons, List.foldl_nil, Nat.one_mul]
    by_cases hp : p (1 + n)
    · rw [if_pos hp]
      exact ⟨1 + n, rfl, Or.inr ⟨by omega, by omega, hp⟩, fun row _ _ => by omega⟩
    · rw [if_neg hp]
      refine ⟨found, rfl, ?_, ?_⟩
      · rcases hfound with h | ⟨h0, hle, h⟩
        · exact Or.inl h
        · exact Or.inr ⟨h0, by omega, h⟩
      · intro row hlt hle
        by_cases hrow : row = 1 + n
        · rwa [hrow]
        · exact hlater row hlt (by omega)

/-- The owner found for a member is the last that starts at or before it. -/
theorem ownerRow_spec (img : Image) (l : OwnerList) (row : Nat) :
    (img.ownerRow l row = 0 ∨ (0 < img.ownerRow l row
        ∧ img.ownerRow l row ≤ (img.table l.owner).rows
        ∧ img.firstMember l (img.ownerRow l row) ≤ row))
      ∧ ∀ owner, img.ownerRow l row < owner → owner ≤ (img.table l.owner).rows →
          row < img.firstMember l owner := by
  obtain ⟨found, hfold, hfound, hlater⟩ :=
    foldl_latest (fun owner => img.firstMember l owner ≤ row) (img.table l.owner).rows
  have heq : img.ownerRow l row = found := hfold
  rw [heq]
  exact ⟨hfound, fun owner hlt hle => Nat.not_le.mp (hlater owner hlt hle)⟩

/-- If the owners that start at or before a member are the first `found`, the last of them is the
one that is found. -/
theorem ownerRow_eq {row found : Nat} (hle : found ≤ (img.table l.owner).rows)
    (h : ∀ o, 0 < o → o ≤ (img.table l.owner).rows → (img.firstMember l o ≤ row ↔ o ≤ found)) :
    img.ownerRow l row = found := by
  obtain ⟨hspec, hlater⟩ := ownerRow_spec img l row
  -- The row found is one of the first, and no later one of them would have been passed over.
  have hupper : img.ownerRow l row ≤ found := by
    rcases hspec with hzero | ⟨hpos, hrow, hfirst⟩
    · omega
    · exact (h _ hpos hrow).mp hfirst
  by_contra hne
  have hafter := hlater found (by omega) hle
  have hfirst := (h found (by omega) hle).mpr (Nat.le_refl _)
  omega

/-- The owner that is found owns the member, since the next one starts after it. -/
theorem owns_ownerRow {row : Nat} (hrow : row ≤ (img.table l.child).rows)
    (hfound : img.ownerRow l row ≠ 0) : img.Owns l (img.ownerRow l row) row := by
  obtain ⟨hspec, hlater⟩ := ownerRow_spec img l row
  obtain ⟨hpos, hle, hfirst⟩ := hspec.resolve_left hfound
  rw [owns_iff hrow]
  exact ⟨⟨hpos, hle⟩, hfirst, fun hlt => hlater _ (Nat.lt_succ_self _) (by omega)⟩

theorem declaring_of_list {tok : Token} (hl : tok.table?.bind OwnerList.ofChild? = some l)
    (hhas : (img.table l.child).hasRow tok.row = true) :
    img.declaring tok = .ok (if img.ownerRow l tok.row = 0 then Token.null
      else Token.make l.owner (img.ownerRow l tok.row)) := by
  unfold Image.declaring
  simp only [hl, hhas, Bool.not_true, Bool.false_eq_true, if_false]

theorem not_owns_of_ownerRow {row : Nat} (hrow : row ≤ (img.table l.child).rows)
    (hnone : img.ownerRow l row = 0) : ¬ ∃ o, img.Owns l o row := by
  rintro ⟨o, ho⟩
  obtain ⟨⟨hpos, hle⟩, hfirst, -⟩ := (owns_iff hrow).mp ho
  have hafter := (ownerRow_spec img l row).2 o (by omega) hle
  omega

/-- What a member's token is answered with. -/
theorem declaring_eq (img : Image) (hl : OwnerList.ofChild? l.child = some l) {row : Nat}
    (hpos : 0 < row) (hrow : row ≤ (img.table l.child).rows)
    (hsmall : (img.table l.child).rows < Token.rowSpan) :
    img.declaring (Token.make l.child row) = .ok (if img.ownerRow l row = 0 then Token.null
      else Token.make l.owner (img.ownerRow l row)) := by
  have hkeep : (Token.make l.child row).row = row :=
    (Token.row_make l.child row).trans (Nat.mod_eq_of_lt (hrow.trans_lt hsmall))
  have hlist : (Token.make l.child row).table?.bind OwnerList.ofChild? = some l := by
    rw [Token.table?_make, Option.bind_some, hl]
  have hhas : (img.table l.child).hasRow (Token.make l.child row).row = true := by
    rw [hkeep, Table.hasRow, decide_eq_true hpos, decide_eq_true hrow, Bool.and_self]
  rw [declaring_of_list hlist hhas, hkeep]

/-! ## Starts in order -/

theorem firstMember_mono (h : img.InOrder l) {o p : Nat} (ho : 0 < o) (hop : o ≤ p)
    (hp : p ≤ (img.table l.owner).rows) : img.firstMember l o ≤ img.firstMember l p := by
  induction p, hop using Nat.le_induction with
  | base => exact Nat.le_refl _
  | succ p hop ih => exact (ih (by omega)).trans (h p (by omega) (by omega))

/-- With the starts in order, a member has one owner at most. -/
theorem Image.InOrder.owns_unique (h : img.InOrder l) {o p row : Nat}
    (hrow : row ≤ (img.table l.child).rows) (ho : img.Owns l o row) (hp : img.Owns l p row) :
    o = p := by
  -- Of two owners the earlier one ends where the next one starts, at the later one at most.
  have hnot : ∀ {o p : Nat}, img.Owns l o row → img.Owns l p row → ¬ o < p := by
    intro o p ho hp hlt
    obtain ⟨⟨hopos, -⟩, -, hnext⟩ := (owns_iff hrow).mp ho
    obtain ⟨⟨-, hple⟩, hfirst, -⟩ := (owns_iff hrow).mp hp
    have hafter := hnext (by omega)
    have hmono := firstMember_mono h (Nat.add_pos_left hopos 1) hlt hple
    omega
  have hop := hnot ho hp
  have hpo := hnot hp ho
  omega

/-- With the starts in order, a member has an owner unless it comes before all of them. -/
theorem Image.InOrder.exists_owns_iff (h : img.InOrder l) {row : Nat}
    (hrow : row ≤ (img.table l.child).rows) :
    (∃ o, img.Owns l o row)
      ↔ 0 < (img.table l.owner).rows ∧ img.firstMember l 1 ≤ row := by
  constructor
  · rintro ⟨o, ho⟩
    obtain ⟨⟨hpos, hle⟩, hfirst, -⟩ := (owns_iff hrow).mp ho
    exact ⟨by omega, (firstMember_mono h Nat.one_pos hpos hle).trans hfirst⟩
  · rintro ⟨hsome, hfirst⟩
    refine ⟨_, owns_ownerRow hrow ?_⟩
    intro hzero
    have hlater := (ownerRow_spec img l row).2 1 (by omega) hsome
    omega

/-! ## Nothing outside the member table -/

/-- A run ends at the last member, so no owner has a row behind it. -/
theorem Image.Owns.row_le {o row : Nat} (h : img.Owns l o row) :
    row ≤ (img.table l.child).rows := by
  obtain ⟨run, hrun, hin⟩ := h
  obtain ⟨-, -, hstart, hstop⟩ := owned_eq_ok.mp hrun
  rw [contains_iff] at hin
  split at hstop <;> omega

theorem mem_tokens {run : RowRange} {tok : Token} :
    tok ∈ run.tokens ↔ ∃ row, run.contains row = true ∧ Token.make run.table row = tok := by
  rw [RowRange.tokens, List.mem_map]
  apply exists_congr
  intro row
  rw [List.mem_range'_1, contains_iff, RowRange.size]
  constructor
  · rintro ⟨hin, htok⟩
    exact ⟨by omega, htok⟩
  · rintro ⟨hin, htok⟩
    exact ⟨by omega, htok⟩

/-- Row zero is in a run exactly if the owner has a null start and the next one has not. -/
theorem owns_zero_iff {owner : Nat} (howner : 0 < owner ∧ owner ≤ (img.table l.owner).rows) :
    img.Owns l owner 0 ↔ img.firstMember l owner = 0
      ∧ (owner < (img.table l.owner).rows → 0 < img.firstMember l (owner + 1)) := by
  rw [owns_iff (Nat.zero_le _), Nat.le_zero]
  exact ⟨fun h => h.2, fun h => ⟨howner, h⟩⟩

end Runs

/-! ## Methods that all start at the null parameter -/

namespace Assemble.Builder

/-- One parameter, and a number of methods whose parameters start at row zero. -/
def nullMethods (n : Nat) : Builder :=
  { empty with
    rows := TableMap.ofFn fun t =>
      if t = .param then ⟨#[[0, 0, 0]], 0⟩ else if t = .methodDef then ⟨#[], n⟩ else ⟨#[], 0⟩ }

section NullMethods

variable (n : Nat)

theorem rows_nullMethods (t : TableId) : (nullMethods n).rows.get t =
    if t = .param then ⟨#[[0, 0, 0]], 0⟩ else if t = .methodDef then ⟨#[], n⟩ else ⟨#[], 0⟩ := by
  rw [nullMethods, TableMap.get_ofFn]

theorem rowCount_nullMethods (t : TableId) : (nullMethods n).rowCount t =
    if t = .param then 1 else if t = .methodDef then n else 0 := by
  rw [rowCount, rows_nullMethods, TableRows.count, TableRows.balance]
  by_cases hparam : t = .param
  · simp only [hparam, if_true]
    rfl
  · by_cases hmethod : t = .methodDef
    · simp [hmethod]
    · simp [hparam, hmethod]

theorem rowsFit_nullMethods : (nullMethods n).RowsFit := by
  intro t row hrow
  rw [rows_nullMethods] at hrow
  split at hrow
  · next ht =>
    subst ht
    obtain rfl := List.mem_singleton.mp hrow
    rfl
  · split at hrow <;> exact absurd hrow List.not_mem_nil

/-- All rows together: six columns a method and three for the parameter, of four bytes at most. -/
theorem rowSpace_nullMethods : (nullMethods n).rowSpace ≤ 24 * n + 12 := by
  have hspace : ∀ t, (nullMethods n).rowCount t * ((nullMethods n).cellWidths t).sum
      ≤ if t = .param then 12 else if t = .methodDef then 24 * n else 0 := by
    intro t
    rw [rowCount_nullMethods]
    have hrow := (nullMethods n).sum_cellWidths_le t
    split
    · next ht =>
      subst ht
      rw [Nat.one_mul]
      exact hrow
    · split
      · next ht =>
        subst ht
        have hmul := Nat.mul_le_mul_left n hrow
        have hsix : (cellKinds .methodDef).length = 6 := rfl
        rw [hsix] at hmul
        omega
      · rw [Nat.zero_mul]
  rw [rowSpace]
  refine (List.sum_le_sum fun t _ => hspace t).trans ?_
  simp [TableId.all]

theorem size_nullMethods (hn : n ≤ 0x1000001) : (nullMethods n).bytes.size < 0x20000000 := by
  have hrows := rowSpace_nullMethods n
  -- Apart from the rows, nothing was collected but the version and the first byte of each heap.
  have hempty : empty.bodies.size + empty.version.toList.length + empty.strings.size
      + empty.literals.size + empty.guids.size + empty.blobs.size = 13 := by
    decide +kernel
  have hcontent : (nullMethods n).contentSize = empty.bodies.size + empty.version.toList.length
      + (nullMethods n).rowSpace + empty.strings.size + empty.literals.size + empty.guids.size
      + empty.blobs.size := by
    rw [contentSize, nullMethods]
  have hsize := size_bytes_le (rowsFit_nullMethods n)
  omega

/-- The image of such a file: every start is null, though both tables have rows. -/
theorem parse_nullMethods (hn : n ≤ 0x1000001) : ∃ img : Image,
    Image.parse (nullMethods n).bytes = .ok img ∧ (img.table OwnerList.params.child).rows = 1
      ∧ (img.table OwnerList.params.owner).rows = n
      ∧ ∀ row, 0 < row → row ≤ n → img.firstMember .params row = 0 := by
  have hfit := rowsFit_nullMethods n
  obtain ⟨img, hparse, hread, -⟩ := parse_rowsFit hfit (size_nullMethods n hn)
  have hrows : ∀ t, (img.table t).rows = (nullMethods n).rowCount t := hread.tables.rows
  refine ⟨img, hparse, ?_, ?_, ?_⟩
  · exact (hrows .param).trans (rowCount_nullMethods n .param)
  · exact (hrows .methodDef).trans (rowCount_nullMethods n .methodDef)
  · intro row hpos hle
    obtain ⟨i, rfl⟩ := Nat.exists_eq_succ_of_ne_zero hpos.ne'
    have hsize : ((nullMethods n).cellWidths .methodDef)[5]?
        = some ((nullMethods n).cellWidth (.table 0x08)) := by
      rw [cellWidths, List.getElem?_map]
      rfl
    refine cell_padding (t := .methodDef) hfit (hread.tables.layout _) (hread.tables.data _) ?_ ?_
      hsize
    · rw [rows_nullMethods]
      exact Nat.zero_le _
    · rw [rowCount_nullMethods, if_neg (by decide), if_pos rfl]
      omega

end NullMethods

end Assemble.Builder

/-! ## Owners and runs agree -/

section Agreement

variable {img : Image} {l : OwnerList}

theorem isNil_make {t : TableId} {row : Nat} (hpos : 0 < row) (hrow : row < Token.rowSpan) :
    (Token.make t row).isNil = false := by
  rw [Token.isNil, Token.row_make, Nat.mod_eq_of_lt hrow]
  exact beq_eq_false_iff_ne.mpr hpos.ne'

theorem isNil_null : Token.null.isNil = true := by decide

/-- **Owners and runs agree.** Whatever the starts are, the owner that a member is answered with
has the member in its run. If they are in order, runs have no member in common, the members from
the first start on are those that have an owner, and the answer is the only owner there is, or
nil if there is none. -/
theorem declaring_matches_runs (img : Image) (hl : OwnerList.ofChild? l.child = some l)
    (hchild : (img.table l.child).rows < Token.rowSpan)
    (howner : (img.table l.owner).rows < Token.rowSpan) {row : Nat} (hpos : 0 < row)
    (hrow : row ≤ (img.table l.child).rows) :
    ∃ tok, img.declaring (Token.make l.child row) = .ok tok
      ∧ (tok.isNil = true ↔ tok = Token.null)
      ∧ (tok ≠ Token.null → tok.table? = some l.owner ∧ img.Owns l tok.row row)
      ∧ (img.InOrder l →
          (∀ o p shared, img.Owns l o shared → img.Owns l p shared → o = p)
            ∧ ((∃ o, img.Owns l o row)
                ↔ 0 < (img.table l.owner).rows ∧ img.firstMember l 1 ≤ row)
            ∧ (∀ o, img.Owns l o row → tok = Token.make l.owner o)
            ∧ (tok = Token.null ↔ ¬ ∃ o, img.Owns l o row)) := by
  have hruns : img.InOrder l → (∀ o p shared, img.Owns l o shared → img.Owns l p shared → o = p)
      ∧ ((∃ o, img.Owns l o row)
        ↔ 0 < (img.table l.owner).rows ∧ img.firstMember l 1 ≤ row) := by
    intro hord
    exact ⟨fun o p shared ho hp => hord.owns_unique ho.row_le ho hp, hord.exists_owns_iff hrow⟩
  rw [declaring_eq img hl hpos hrow hchild]
  refine ⟨_, rfl, ?_⟩
  by_cases hfound : img.ownerRow l row = 0
  · have hnone := not_owns_of_ownerRow hrow hfound
    rw [if_pos hfound]
    refine ⟨⟨fun _ => rfl, fun _ => isNil_null⟩, fun h => absurd rfl h, fun hord => ?_⟩
    obtain ⟨hunique, hcovered⟩ := hruns hord
    exact ⟨hunique, hcovered, fun o ho => absurd ⟨o, ho⟩ hnone, ⟨fun _ => hnone, fun _ => rfl⟩⟩
  · have howns := owns_ownerRow hrow hfound
    have hsmall : img.ownerRow l row < Token.rowSpan := by
      obtain ⟨-, hle, -⟩ := (ownerRow_spec img l row).1.resolve_left hfound
      exact hle.trans_lt howner
    -- The owner has a row that its token keeps.
    have hkeep : (Token.make l.owner (img.ownerRow l row)).row = img.ownerRow l row :=
      (Token.row_make _ _).trans (Nat.mod_eq_of_lt hsmall)
    have hnil := isNil_make (t := l.owner) (Nat.pos_of_ne_zero hfound) hsmall
    have hne : Token.make l.owner (img.ownerRow l row) ≠ Token.null := by
      intro h
      rw [h, isNil_null] at hnil
      cases hnil
    rw [if_neg hfound, hkeep, hnil]
    refine ⟨⟨fun h => absurd h Bool.false_ne_true, fun h => absurd h hne⟩,
      fun _ => ⟨Token.table?_make _ _, howns⟩, fun hord => ?_⟩
    obtain ⟨hunique, hcovered⟩ := hruns hord
    refine ⟨hunique, hcovered, fun o ho => ?_, ⟨fun h => absurd h hne, fun h => ?_⟩⟩
    · rw [hunique _ _ _ ho howns]
    · exact absurd ⟨_, howns⟩ h

/-- Of owners that all start at the null member, the last is found. -/
theorem ownerRow_of_null {row : Nat}
    (hnull : ∀ o, 0 < o → o ≤ (img.table l.owner).rows → img.firstMember l o = 0) :
    img.ownerRow l row = (img.table l.owner).rows := by
  apply ownerRow_eq (Nat.le_refl _)
  intro o hpos hle
  rw [hnull o hpos hle]
  omega

end Agreement

section NullMethods

open Assemble Builder

theorem declaring_matches_runs_nullMethods : ∃ (img : Image) (tok : Token),
    Image.parse (nullMethods 2).bytes = .ok img ∧ img.InOrder .params
      ∧ img.declaring (Token.make .param 1) = .ok tok
      ∧ tok = Token.make .methodDef 2 ∧ img.Owns .params 2 1 := by
  obtain ⟨img, hparse, hparam, hmethods, hnull⟩ := parse_nullMethods 2 (by omega)
  have hspan : 2 < Token.rowSpan := by decide
  have hord : img.InOrder .params := by
    intro row hpos hlt
    rw [hnull row hpos (by omega), hnull (row + 1) (by omega) (by omega)]
  have howns : img.Owns .params 2 1 := by
    rw [owns_iff (by omega), hnull 2 (by omega) (by omega)]
    omega
  obtain ⟨tok, htok, -, -, hagree⟩ := declaring_matches_runs img (l := .params) rfl
    (by omega) (by omega) Nat.one_pos (by omega)
  obtain ⟨-, -, honly, -⟩ := hagree hord
  exact ⟨img, tok, hparse, hord, htok, honly 2 howns, howns⟩

/-- Of 2^24 + 1 methods the last one has the parameter, but its token is that of the first. -/
theorem declaring_truncates_owner : ∃ (img : Image) (tok : Token) (run : RowRange),
    Image.parse (nullMethods 0x1000001).bytes = .ok img
      ∧ (img.table .param).rows < Token.rowSpan ∧ 1 ≤ (img.table .param).rows
      ∧ img.declaring (Token.make .param 1) = .ok tok
      ∧ tok.isNil = false ∧ tok.table? = some .methodDef
      ∧ img.paramRange tok.row = .ok run ∧ run.contains 1 = false := by
  obtain ⟨img, hparse, hparam, hmethods, hnull⟩ := parse_nullMethods 0x1000001 (by omega)
  have hspan : Token.rowSpan = 0x1000000 := rfl
  have hfound : img.ownerRow .params 1 = 0x1000001 := by
    rw [← hmethods]
    exact ownerRow_of_null fun o hpos hle => hnull o hpos (hmethods ▸ hle)
  have htok := declaring_eq img (l := .params) rfl Nat.one_pos (by omega) (by omega)
  rw [hfound, if_neg (by omega)] at htok
  have hrow : (Token.make OwnerList.params.owner 0x1000001).row = 1 := by
    rw [Token.row_make, hspan]
  obtain ⟨run, hrun⟩ := owned_exists img .params 1 (by omega)
  have hsmall : (img.table .param).rows < Token.rowSpan := by
    rw [show (img.table .param).rows = 1 from hparam, hspan]
    omega
  refine ⟨img, _, run, hparse, hsmall, hparam.ge, htok, ?_, Token.table?_make _ _, ?_, ?_⟩
  · rw [Token.isNil, hrow]
    rfl
  · rw [hrow]
    exact hrun
  · obtain ⟨-, -, hstart, hstop⟩ := owned_eq_ok.mp hrun
    rw [hnull 1 (by omega) (by omega)] at hstart
    rw [if_pos (by omega), hnull (1 + 1) (by omega) (by omega)] at hstop
    rw [Bool.eq_false_iff, Ne, contains_iff]
    omega

end NullMethods

/-! ## Runs and the rows there are -/

section Members

variable {img : Image} {l : OwnerList} {owner : Nat} {run : RowRange}

theorem table_of_owned (hrun : img.owned l owner = .ok run) : run.table = l.child :=
  (owned_eq_ok.mp hrun).2.1

/-- The tokens of a run are those of the rows that the owner has. -/
theorem mem_tokens_owned (hrun : img.owned l owner = .ok run) {tok : Token} :
    tok ∈ run.tokens ↔ ∃ row, img.Owns l owner row ∧ Token.make l.child row = tok := by
  rw [mem_tokens, table_of_owned hrun]
  apply exists_congr
  intro row
  refine and_congr_left fun _ => ⟨fun hin => ⟨run, hrun, hin⟩, ?_⟩
  rintro ⟨run', hrun', hin⟩
  obtain rfl := Except.ok.inj (hrun.symm.trans hrun')
  exact hin

/-- **What a run names.** It has as many rows as it names, all of the member table and none
behind its end. Row zero is not kept out: it is named exactly if the owner starts at the null
member and the next owner, if there is one, does not. -/
theorem run_names_rows_iff (hsmall : (img.table l.child).rows < Token.rowSpan)
    (hrun : img.owned l owner = .ok run) :
    run.size = run.tokens.length
      ∧ (∀ tok ∈ run.tokens, tok.table? = some l.child ∧ tok.row ≤ (img.table l.child).rows)
      ∧ ((∀ tok ∈ run.tokens, 0 < tok.row) ↔ (img.firstMember l owner = 0 →
          owner < (img.table l.owner).rows ∧ img.firstMember l (owner + 1) = 0)) := by
  -- No row that is owned is cut off by its token.
  have hrow : ∀ {row : Nat}, img.Owns l owner row → (Token.make l.child row).row = row := by
    intro row howns
    rw [Token.row_make, Nat.mod_eq_of_lt (howns.row_le.trans_lt hsmall)]
  have hnamed : ∀ {p : Token → Prop}, (∀ tok ∈ run.tokens, p tok)
      ↔ ∀ row, img.Owns l owner row → p (Token.make l.child row) := by
    intro p
    simp only [mem_tokens_owned hrun]
    constructor
    · intro h row howns
      exact h _ ⟨row, howns, rfl⟩
    · rintro h tok ⟨row, howns, rfl⟩
      exact h row howns
  refine ⟨?_, ?_, ?_⟩
  · rw [RowRange.tokens, List.length_map, List.length_range']
  · rw [hnamed]
    intro row howns
    rw [hrow howns]
    exact ⟨Token.table?_make _ _, howns.row_le⟩
  · have hzero := owns_zero_iff (l := l) (owned_eq_ok.mp hrun).1
    have hpositive : (∀ tok ∈ run.tokens, 0 < tok.row) ↔ ¬ img.Owns l owner 0 := by
      rw [hnamed]
      constructor
      · intro h howns
        have hpos := h 0 howns
        rw [hrow howns] at hpos
        exact Nat.lt_irrefl 0 hpos
      · intro h row howns
        rw [hrow howns]
        exact Nat.pos_of_ne_zero fun h0 => h (h0 ▸ howns)
    rw [hpositive, hzero]
    constructor
    · intro h hnull
      by_contra hlater
      exact h ⟨hnull, by omega⟩
    · rintro h ⟨hnull, hnext⟩
      obtain ⟨hlt, hnull'⟩ := h hnull
      have hafter := hnext hlt
      omega

open Assemble Builder

theorem run_names_rows_iff_nullMethods : ∃ (img : Image) (run : RowRange),
    Image.parse (nullMethods 1).bytes = .ok img ∧ img.paramRange 1 = .ok run
      ∧ (img.table .param).rows < Token.rowSpan ∧ run.tokens.length = 2
      ∧ (∀ tok ∈ run.tokens, tok.table? = some .param ∧ tok.row ≤ 1)
      ∧ ¬ ∀ tok ∈ run.tokens, 0 < tok.row := by
  obtain ⟨img, hparse, hparam, hmethods, hnull⟩ := parse_nullMethods 1 (by omega)
  obtain ⟨run, hrun⟩ := owned_exists img .params 1 (by omega)
  have hspan : 1 < Token.rowSpan := by decide
  have hsmall : (img.table OwnerList.params.child).rows < Token.rowSpan := by omega
  obtain ⟨hsize, hnamed, hpositive⟩ := run_names_rows_iff hsmall hrun
  -- The run is that of the last owner: from row zero up to one behind the last row.
  obtain ⟨-, -, hstart, hstop⟩ := owned_eq_ok.mp hrun
  have hfirst := hnull 1 (by omega) (by omega)
  rw [hfirst] at hstart
  rw [if_neg (by omega)] at hstop
  rw [hparam] at hnamed
  refine ⟨img, run, hparse, hrun, hsmall, ?_, hnamed, fun hall => ?_⟩
  · rw [← hsize, RowRange.size]
    omega
  · obtain ⟨hlater, -⟩ := hpositive.mp hall hfirst
    omega

/-- The only method starts at the null parameter, so its run names row zero. -/
theorem run_names_null_row : ∃ (img : Image) (run : RowRange) (tok : Token),
    Image.parse (nullMethods 1).bytes = .ok img ∧ (img.table .param).rows < Token.rowSpan
      ∧ img.paramRange 1 = .ok run ∧ tok ∈ run.tokens ∧ tok.row = 0 := by
  obtain ⟨img, hparse, hparam, hmethods, hnull⟩ := parse_nullMethods 1 (by omega)
  obtain ⟨run, hrun⟩ := owned_exists img .params 1 (by omega)
  have hspan : 1 < Token.rowSpan := by decide
  have hsmall : (img.table OwnerList.params.child).rows < Token.rowSpan := by omega
  have howns : img.Owns .params 1 0 := by
    rw [owns_zero_iff (by omega), hnull 1 (by omega) (by omega)]
    omega
  have htok := (mem_tokens_owned hrun).mpr ⟨0, howns, rfl⟩
  exact ⟨img, run, _, hparse, hsmall, hrun, htok, Token.row_make _ _⟩

end Members

end ManagedImage
