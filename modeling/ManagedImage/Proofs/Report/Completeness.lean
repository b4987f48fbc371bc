/-
Summaries are complete.

A summary goes through the type definitions row by row, and all that could stop it is a
row whose members are not found. A row that its token names has its members
(`TypeEntry.exists_summarized`), whatever the heaps hold and whatever its name, its base
type, its signatures and its bodies decode to, so every row gets its entry.

That no member is lost or listed twice is a fact about the starts alone. With the starts in
order, a run ends where the next one starts, both clipped to the row behind the last member
(`InOrder.owned_eq`). Neighbouring runs join, so by induction the first `n` of them are one
run (`flatMap_runs`), and the last one ends with the last member.
-/
import ManagedImage.Report.Summary
import ManagedImage.Proofs.Assemble.Ownership
import ManagedImage.Proofs.Metadata.Search

set_option autoImplicit false

namespace ManagedImage

/-! ## Rows and their tokens -/

theorem Token.row_make_of_lt {t : TableId} {row : Nat} (h : row < Token.rowSpan) :
    (Token.make t row).row = row :=
  (Token.row_make t row).trans (Nat.mod_eq_of_lt h)

/-- A token tells the rows of a small table apart, so things that have the tokens of all rows have
their numbers. -/
theorem Image.map_row_of_tokens {img : Image} {α : Type} {token : α → Token} {xs : List α}
    {t : TableId} (hsmall : (img.table t).rows < Token.rowSpan)
    (h : xs.map token = (img.table t).rowNumbers.map (Token.make t)) :
    xs.map (fun x => (token x).row) = (img.table t).rowNumbers := by
  calc xs.map (fun x => (token x).row)
      = (xs.map token).map Token.row := by
        rw [List.map_map]
        rfl
    _ = (img.table t).rowNumbers.map fun row => (Token.make t row).row := by
        rw [h, List.map_map]
        rfl
    _ = (img.table t).rowNumbers.map fun row => row :=
      List.map_congr_left fun row hrow =>
        Token.row_make_of_lt ((Table.mem_rowNumbers.mp hrow).2.trans_lt hsmall)
    _ = (img.table t).rowNumbers := List.map_id' _

/-! ## Runs that join -/

namespace Image

/-- Where the run of a row starts: at the first member the row names, but not beyond the row behind
the last member. Behind the last owner no member is left. -/
def runStart (img : Image) (l : OwnerList) (row : Nat) : Nat :=
  if row ≤ (img.table l.owner).rows then
    min (img.firstMember l row) ((img.table l.child).rows + 1)
  else (img.table l.child).rows + 1

/-- The rows from one start to the next. -/
def ownRows (img : Image) (l : OwnerList) (row : Nat) : List Nat :=
  List.range' (img.runStart l row) (img.runStart l (row + 1) - img.runStart l row)

/-- The starts are in order and the first of them is the first member. -/
structure Partitioned (img : Image) (l : OwnerList) : Prop where
  /-- There is a first owner. -/
  inhabited : 0 < (img.table l.owner).rows
  /-- It starts at the first member. -/
  first : img.firstMember l 1 = 1
  /-- No owner starts before the one in front of it. -/
  inOrder : img.InOrder l

end Image

section Runs

variable {img : Image} {l : OwnerList}

variable (img l) in
theorem runStart_le_limit (row : Nat) : img.runStart l row ≤ (img.table l.child).rows + 1 := by
  unfold Image.runStart
  split
  · exact Nat.min_le_right _ _
  · exact Nat.le_refl _

theorem Image.InOrder.runStart_le (h : img.InOrder l) {row : Nat} (hpos : 0 < row) :
    img.runStart l row ≤ img.runStart l (row + 1) := by
  unfold Image.runStart
  by_cases hlt : row < (img.table l.owner).rows
  · have hnext := h row hpos hlt
    rw [if_pos hlt.le, if_pos (Nat.succ_le_of_lt hlt)]
    omega
  · rw [if_neg (show ¬ row + 1 ≤ (img.table l.owner).rows by omega)]
    split <;> omega

/-- With the starts in order, a run ends where the next one starts. -/
theorem Image.InOrder.owned_eq (h : img.InOrder l) {row : Nat}
    (hrow : 0 < row ∧ row ≤ (img.table l.owner).rows) :
    img.owned l row = .ok ⟨l.child, img.runStart l row, img.runStart l (row + 1)⟩ := by
  have hle := h.runStart_le hrow.1
  rw [owned_eq_ok]
  exact ⟨hrow, rfl, if_pos hrow.2, (Nat.max_eq_left hle).symm⟩

/-- The same of a run that was found. -/
theorem Image.InOrder.run_eq (h : img.InOrder l) {row : Nat} {run : RowRange}
    (hrow : 0 < row ∧ row ≤ (img.table l.owner).rows) (hrun : img.owned l row = .ok run) :
    run.tokens = (img.ownRows l row).map (Token.make l.child)
      ∧ run.size = (img.ownRows l row).length := by
  obtain rfl := Except.ok.inj (hrun.symm.trans (h.owned_eq hrow))
  exact ⟨rfl, List.length_range'.symm⟩

/-- **Neighbouring runs join**, by induction on how many there are. -/
theorem Image.InOrder.flatMap_ownRows (h : img.InOrder l) (n : Nat) :
    img.runStart l 1 ≤ img.runStart l (n + 1)
      ∧ (List.range' 1 n).flatMap (img.ownRows l)
        = List.range' (img.runStart l 1) (img.runStart l (n + 1) - img.runStart l 1) := by
  induction n with
  | zero => exact ⟨Nat.le_refl _, by rw [Nat.sub_self]; rfl⟩
  | succ n ih =>
    obtain ⟨hle, hjoined⟩ := ih
    have hnext : img.runStart l (n + 1) ≤ img.runStart l (n + 1 + 1) :=
      h.runStart_le (Nat.succ_pos n)
    have hfrom : img.runStart l (n + 1)
        = img.runStart l 1 + (img.runStart l (n + 1) - img.runStart l 1) := by omega
    have hsize : img.runStart l (n + 1 + 1) - img.runStart l 1
        = (img.runStart l (n + 1) - img.runStart l 1)
          + (img.runStart l (n + 1 + 1) - img.runStart l (n + 1)) := by omega
    refine ⟨hle.trans hnext, ?_⟩
    rw [List.range'_concat, List.flatMap_append, hjoined, Nat.one_mul, Nat.add_comm 1 n,
      List.flatMap_singleton, Image.ownRows, hsize, ← List.range'_append_1, ← hfrom]

/-- All runs together are the rows of the member table. -/
theorem Image.Partitioned.flatMap_ownRows (h : img.Partitioned l) :
    (img.table l.owner).rowNumbers.flatMap (img.ownRows l) = (img.table l.child).rowNumbers := by
  have hfirst : img.runStart l 1 = 1 := by
    have hone : 1 ≤ (img.table l.owner).rows := h.inhabited
    rw [Image.runStart, if_pos hone, h.first]
    omega
  have hlast : img.runStart l ((img.table l.owner).rows + 1) = (img.table l.child).rows + 1 :=
    if_neg (Nat.not_succ_le_self _)
  rw [Table.rowNumbers, (h.inOrder.flatMap_ownRows _).2, hfirst, hlast]
  rfl

end Runs

/-! ## Assembled images -/

namespace Assemble.Placed

variable {calls before after : List (Step × Int)} {c : Step × Int} {img : Image} {l : OwnerList}

/-- Owners that steps added are in order: what was added before one of them was there before the
next. -/
theorem inOrder (h : Placed calls img l) : img.InOrder l := by
  intro row hpos hlt
  rw [h.owners_eq] at hlt
  obtain ⟨before, c, after, hsplit, hc, hcount⟩ := exists_call calls l.owner (k := row - 1) (by omega)
  have hmore : 0 < (added after l.owner).length := by
    rw [hsplit, added_append, added_cons_of_eq _ _ hc, List.length_append, List.length_cons] at hlt
    omega
  obtain ⟨mid, d, rest, rfl, hd, hnone⟩ := exists_call after l.owner hmore
  have hfirst := h.starts before c _ hsplit hc
  have hnext := h.starts (before ++ c :: mid) d rest (by rw [hsplit]; simp) hd
  rw [added_append, added_cons_of_eq _ _ hc, List.length_append, List.length_cons, hnone, hcount]
    at hnext
  rw [hcount, Nat.sub_add_cancel hpos] at hfirst
  rw [zero_add, Nat.sub_add_cancel hpos] at hnext
  rw [hfirst, hnext, added_append, List.length_append]
  omega

/-- If an owner is there before all members, every member has one. -/
theorem partitioned (h : Placed calls img l) (hsplit : calls = before ++ c :: after)
    (hc : c.1.adds? = some l.owner) (howners : added before l.owner = [])
    (hmembers : added before l.child = []) : img.Partitioned l := by
  refine ⟨?_, ?_, h.inOrder⟩
  · rw [h.owners_eq, hsplit, added_append, added_cons_of_eq _ _ hc, List.length_append,
      List.length_cons]
    omega
  · have hfirst := h.starts before c after hsplit hc
    rwa [howners, hmembers] at hfirst

end Assemble.Placed

namespace Report

/-! ## Entries -/

theorem MethodEntry.token_ofImage (img : Image) (tok : Token) :
    (MethodEntry.ofImage img tok).token = tok := by
  unfold MethodEntry.ofImage
  dsimp only
  split
  · rfl
  · split <;> rfl

/-- What the entry of a row of type definitions says about the members of the type. -/
structure TypeEntry.Lists (img : Image) (row : Nat) (entry : TypeEntry) : Prop where
  /-- It has the token of the row. -/
  token : entry.token = Token.make .typeDef row
  /-- It has one entry for each method that the row owns. -/
  methods : ∃ run, img.methodRange row = .ok run ∧ entry.methods.map (·.token) = run.tokens
  /-- It counts the fields that the row owns. -/
  fields : ∃ run, img.fieldRange row = .ok run ∧ entry.fields = Int64.ofNat run.size

/-- **One row** has its entry, whatever else is in the image. -/
theorem TypeEntry.exists_summarized (img : Image) {row : Nat}
    (hrow : 0 < row ∧ row ≤ (img.table .typeDef).rows)
    (htypes : (img.table .typeDef).rows < Token.rowSpan) :
    ∃ entry, TypeEntry.summarized img row = .ok entry ∧ entry.Lists img row := by
  have hkeep : (Token.make .typeDef row).row = row := Token.row_make_of_lt (hrow.2.trans_lt htypes)
  obtain ⟨fields, hfields⟩ := owned_exists img .fields row hrow
  obtain ⟨methods, hmethods⟩ := owned_exists img .methods row hrow
  have hentry : TypeEntry.ofImage img row = .ok {
      token := Token.make .typeDef row
      name := orEmpty (img.typeName (Token.make .typeDef row))
      base := baseName img row
      fields := Int64.ofNat fields.size
      methods := methods.tokens.map (MethodEntry.ofImage img) } := by
    rw [TypeEntry.ofImage, hkeep, Image.fieldRange, Image.methodRange, hfields, hmethods]
    rfl
  rw [TypeEntry.summarized, hentry]
  refine ⟨_, rfl, rfl, ⟨methods, hmethods, ?_⟩, fields, hfields, rfl⟩
  rw [List.map_map]
  exact List.map_id'' (fun tok => MethodEntry.token_ofImage img tok) _

/-- The types a summary lists. -/
def Summary.allTypes (s : Summary) : List TypeEntry := s.types.getD []

/-- The methods of all types it lists, in order. -/
def Summary.allMethods (s : Summary) : List MethodEntry := s.allTypes.flatMap (·.methods)

/-- The fields of some types together. -/
def fieldCount (entries : List TypeEntry) : Int := entries.foldr (fun t n => t.fields.toInt + n) 0

/-- **All rows**, from one row: the summary has their entries in order. -/
theorem Summary.exists_ofImage (img : Image) (htypes : (img.table .typeDef).rows < Token.rowSpan) :
    ∃ s, Summary.ofImage img = .ok s
      ∧ List.Forall₂ (TypeEntry.Lists img) (img.table .typeDef).rowNumbers s.allTypes := by
  have hrows : ∀ rows : List Nat, (∀ row ∈ rows, row ∈ (img.table .typeDef).rowNumbers) →
      ∃ entries, List.Forall₂ (fun row entry => TypeEntry.summarized img row = .ok entry) rows entries
        ∧ List.Forall₂ (TypeEntry.Lists img) rows entries := by
    intro rows
    induction rows with
    | nil => exact fun _ => ⟨[], .nil, .nil⟩
    | cons row rows ih =>
      intro hmem
      obtain ⟨entries, hread, hlists⟩ := ih fun r hr => hmem r (List.mem_cons_of_mem _ hr)
      obtain ⟨entry, hentry, hlist⟩ := TypeEntry.exists_summarized img
        (Table.mem_rowNumbers.mp (hmem row List.mem_cons_self)) htypes
      exact ⟨entry :: entries, .cons hentry hread, .cons hlist hlists⟩
  obtain ⟨entries, hread, hlists⟩ := hrows _ fun _ h => h
  rw [Summary.ofImage, Except.mapM_eq_ok hread]
  refine ⟨_, rfl, ?_⟩
  rw [Summary.allTypes, getD_started]
  exact hlists

/-! ## What the entries amount to -/

section Entries

variable {img : Image} {rows : List Nat} {entries : List TypeEntry}

theorem map_token_of_lists (h : List.Forall₂ (TypeEntry.Lists img) rows entries) :
    entries.map (·.token) = rows.map (Token.make .typeDef) := by
  induction h with
  | nil => rfl
  | cons hentry _ ih => rw [List.map_cons, List.map_cons, hentry.token, ih]

/-- With the method lists in order, the methods are those between the starts. -/
theorem map_methods_of_lists (hord : img.InOrder .methods)
    (hrows : ∀ row ∈ rows, 0 < row ∧ row ≤ (img.table .typeDef).rows)
    (h : List.Forall₂ (TypeEntry.Lists img) rows entries) :
    (entries.flatMap (·.methods)).map (·.token)
      = (rows.flatMap (img.ownRows .methods)).map (Token.make .methodDef) := by
  induction h with
  | nil => rfl
  | cons hentry _ ih =>
    obtain ⟨run, hrun, htokens⟩ := hentry.methods
    obtain ⟨hrows', hrest⟩ := List.forall_mem_cons.mp hrows
    rw [List.flatMap_cons, List.flatMap_cons, List.map_append, List.map_append, htokens,
      (hord.run_eq hrows' hrun).1, ih hrest]
    rfl

theorem toInt_ofNat_of_lt {n : Nat} (h : n < 2 ^ 63) : (Int64.ofNat n).toInt = n := by
  have hsize : Int64.size = 2 ^ 64 := rfl
  rw [Int64.toInt_ofNat', Int.bmod_eq_of_le] <;> omega

/-- With the field lists in order, the counts are those between the starts. None of them is too
large for its width. -/
theorem sum_fields_of_lists (hord : img.InOrder .fields)
    (hfields : (img.table .field).rows < Token.rowSpan)
    (hrows : ∀ row ∈ rows, 0 < row ∧ row ≤ (img.table .typeDef).rows)
    (h : List.Forall₂ (TypeEntry.Lists img) rows entries) :
    fieldCount entries = ((rows.flatMap (img.ownRows .fields)).length : Nat) := by
  induction h with
  | nil => rfl
  | @cons row entry rows entries hentry _ ih =>
    obtain ⟨run, hrun, hcount⟩ := hentry.fields
    obtain ⟨hrow, hrest⟩ := List.forall_mem_cons.mp hrows
    have hsmall : (img.ownRows .fields row).length < 2 ^ 63 := by
      have hlimit : img.runStart .fields (row + 1) ≤ (img.table .field).rows + 1 :=
        runStart_le_limit img .fields (row + 1)
      rw [Token.rowSpan] at hfields
      rw [Image.ownRows, List.length_range']
      omega
    rw [fieldCount, List.foldr_cons, hcount, (hord.run_eq hrow hrun).2, toInt_ofNat_of_lt hsmall,
      ← fieldCount, ih hrest, List.flatMap_cons, List.length_append, Int.natCast_add]

end Entries

/-! ## All summaries -/

/-- **Summaries are complete.** With fewer rows than a token tells apart, an image has a summary,
whatever its heaps, names, signatures and bodies are, and the summary has one entry for each type
definition, in order. If the method lists are in order from the first method on, the methods of all
entries are all methods, in order, each once; if the field lists are, the numbers of fields add up
to all fields. -/
theorem summary_complete (img : Image) (htypes : (img.table .typeDef).rows < Token.rowSpan)
    (hmethods : (img.table .methodDef).rows < Token.rowSpan)
    (hfields : (img.table .field).rows < Token.rowSpan) :
    ∃ s, Summary.ofImage img = .ok s
      ∧ s.allTypes.map (·.token) = (img.table .typeDef).rowNumbers.map (Token.make .typeDef)
      ∧ s.allTypes.map (·.token.row) = (img.table .typeDef).rowNumbers
      ∧ (img.Partitioned .methods →
          s.allMethods.map (·.token) = (img.table .methodDef).rowNumbers.map (Token.make .methodDef)
            ∧ s.allMethods.map (·.token.row) = (img.table .methodDef).rowNumbers)
      ∧ (img.Partitioned .fields →
          fieldCount s.allTypes = (img.table .field).rows) := by
  obtain ⟨s, hs, hlists⟩ := Summary.exists_ofImage img htypes
  have hrows : ∀ row ∈ (img.table .typeDef).rowNumbers, 0 < row ∧ row ≤ (img.table .typeDef).rows :=
    fun row => Table.mem_rowNumbers.mp
  have htokens := map_token_of_lists hlists
  refine ⟨s, hs, htokens, Image.map_row_of_tokens htypes htokens, fun hpart => ?_, fun hpart => ?_⟩
  · have hall : s.allMethods.map (·.token)
        = (img.table .methodDef).rowNumbers.map (Token.make .methodDef) := by
      rw [Summary.allMethods, map_methods_of_lists hpart.inOrder hrows hlists]
      exact congrArg (List.map (Token.make .methodDef)) hpart.flatMap_ownRows
    exact ⟨hall, Image.map_row_of_tokens hmethods hall⟩
  · rw [sum_fields_of_lists hpart.inOrder hfields hrows hlists]
    exact congrArg Nat.cast
      ((congrArg List.length hpart.flatMap_ownRows).trans List.length_range')

section Witness

open Assemble

/-- Two types: one with a field and two methods, and one with a field, none of whose names, base
types, signatures and bodies can be read. -/
def ownedTypes : List Step :=
  [.typeDef 0 "N" "A" 0, .field 6 "x" [6, 8], .method 0 "M" [0, 0, 1] none, .method 0 "M" [0xFF] none,
    .typeDef 0 "N" "B" 7, .field 6 "y" [6, 8]]

theorem summary_complete_ownedTypes : ∃ (results : List Int) (b : Builder) (img : Image)
    (s : Summary), build ownedTypes = .ok (results, b) ∧ Image.parse b.bytes = .ok img
      ∧ Summary.ofImage img = .ok s
      ∧ s.allTypes.map (·.token) = [Token.make .typeDef 1, Token.make .typeDef 2]
      ∧ s.allMethods.map (·.token) = [Token.make .methodDef 1, Token.make .methodDef 2]
      ∧ fieldCount s.allTypes = 2 := by
  have hcalls : ∀ s ∈ ownedTypes, s.Calls := by
    simp [ownedTypes, Step.Calls]
  obtain ⟨_, b, hbuild, hsize, rfl, htypes, hfields, hmethods⟩ := exists_build_of_short ownedTypes
    (p := fun results b => results = [1, 1, 1, 2, 2, 2] ∧ b.rowCount .typeDef = 2
      ∧ b.rowCount .field = 2 ∧ b.rowCount .methodDef = 2) (by decide +kernel)
  obtain ⟨-, hfit, -⟩ := journal_of_build hbuild
  obtain ⟨img, hparse, hr, -⟩ := Builder.parse_rowsFit hfit hsize
  have hrows : ∀ t, (img.table t).rows = b.rowCount t := hr.tables.rows
  have hpart : ∀ l : OwnerList, OwnerList.ofChild? l.child = some l → l.owner = .typeDef →
      b.rowCount l.child = 2 → img.Partitioned l := by
    intro l hlist howner hchild
    have hplaced := (tallied_of_build hcalls hbuild).placed hfit hsize hr hlist
      (by rw [hchild]; decide)
    exact hplaced.partitioned (List.nil_append _).symm (congrArg some howner.symm) rfl rfl
  obtain ⟨s, hs, htokens, -, hlisted, hcounted⟩ := summary_complete img
    (by rw [hrows, htypes]; decide) (by rw [hrows, hmethods]; decide)
    (by rw [hrows, hfields]; decide)
  refine ⟨_, b, img, s, hbuild, hparse, hs, ?_, ?_, ?_⟩
  · rw [htokens, Table.rowNumbers, hrows, htypes]
    rfl
  · rw [(hlisted (hpart .methods rfl rfl hmethods)).1, Table.rowNumbers, hrows, hmethods]
    rfl
  · rw [hcounted (hpart .fields rfl rfl hfields), hrows, hfields]
    rfl

end Witness

end Report

end ManagedImage
