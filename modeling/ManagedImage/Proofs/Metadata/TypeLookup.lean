/-
Finding a type by its full name.

The search names one definition after the other and compares. It passes a row exactly if the
row has a name and it is another one (`go_append`), so it ends at the first row of two kinds:
one with the name it looks for, or one that has no name at all, for whatever reason. The
second kind ends it with the fault of that row. So whether a type is found depends on the rows
in front of it, and on nothing behind it.
-/
import ManagedImage.Proofs.Metadata.Nesting

set_option autoImplicit false

namespace ManagedImage

namespace Image

/-- A definition that has a full name. -/
def IsNamed (img : Image) (full : Text) (row : Nat) : Prop :=
  (img.table .typeDef).hasRow row = true ∧ img.typeName (Token.make .typeDef row) = .ok full

/-- A definition that has no name, because its chain or one of its strings cannot be read. -/
def IsUnnamed (img : Image) (row : Nat) : Prop :=
  (img.table .typeDef).hasRow row = true
    ∧ ∃ f, img.typeName (Token.make .typeDef row) = .error f

variable {img : Image} {full : Text} {row : Nat}

/-! ## The search -/

/-- Types with other names are passed. -/
theorem findType_go_append {before after : List Token}
    (h : ∀ tok ∈ before, ∃ name, img.typeName tok = .ok name ∧ name ≠ full) :
    findType.go img full (before ++ after) = findType.go img full after := by
  induction before with
  | nil => rfl
  | cons tok before ih =>
    obtain ⟨name, hname, hne⟩ := h tok List.mem_cons_self
    rw [List.cons_append, findType.go, hname]
    exact (if_neg hne).trans (ih fun tok' hmem => h tok' (List.mem_cons_of_mem _ hmem))

/-- The search comes to a row behind rows that all have other names. -/
theorem findType_at (hrow : (img.table .typeDef).hasRow row = true)
    (h : ∀ row', 0 < row' → row' < row →
      ∃ name, img.typeName (Token.make .typeDef row') = .ok name ∧ name ≠ full) :
    ∃ after, img.findType full = findType.go img full (Token.make .typeDef row :: after) := by
  obtain ⟨hpos, hle⟩ := Table.hasRow_iff.mp hrow
  obtain ⟨before, rfl⟩ : ∃ before, row = 1 + before := ⟨row - 1, by omega⟩
  obtain ⟨behind, hrows⟩ := Nat.exists_eq_add_of_le hle
  have hsplit : (img.table .typeDef).rowNumbers
      = List.range' 1 before ++ (1 + before) :: List.range' (1 + before + 1) behind := by
    rw [← List.range'_succ, List.range'_append_1, Table.rowNumbers, hrows]
    congr 1
    omega
  refine ⟨(List.range' (1 + before + 1) behind).map (Token.make .typeDef), ?_⟩
  rw [findType, hsplit, List.map_append, List.map_cons, findType_go_append]
  intro tok htok
  obtain ⟨row', hmem, rfl⟩ := List.mem_map.mp htok
  rw [List.mem_range'_1] at hmem
  exact h row' (by omega) (by omega)

theorem findType_of_isNamed (hrow : img.IsNamed full row)
    (h : ∀ row', 0 < row' → row' < row →
      ∃ name, img.typeName (Token.make .typeDef row') = .ok name ∧ name ≠ full) :
    img.findType full = .ok (Token.make .typeDef row) := by
  obtain ⟨after, hafter⟩ := findType_at hrow.1 h
  rw [hafter, findType.go, hrow.2]
  exact if_pos rfl

theorem findType_of_isUnnamed {f : Fault} (hrow : (img.table .typeDef).hasRow row = true)
    (hfault : img.typeName (Token.make .typeDef row) = .error f)
    (h : ∀ row', 0 < row' → row' < row →
      ∃ name, img.typeName (Token.make .typeDef row') = .ok name ∧ name ≠ full) :
    img.findType full = .error f := by
  obtain ⟨after, hafter⟩ := findType_at hrow h
  rw [hafter, findType.go, hfault]
  rfl

/-! ## What is found -/

/-- Rows in front of both the first one with the name and the first one without any are passed. -/
theorem passed_of_isFirst {first bad : Nat} (hfirst : IsFirst (img.IsNamed full) first)
    (hbad : IsFirst img.IsUnnamed bad) (hrow : row ≤ (img.table .typeDef).rows)
    (hfirst' : row ≤ first) (hbad' : bad = 0 ∨ row ≤ bad) {row' : Nat} (hpos : 0 < row')
    (hlt : row' < row) :
    ∃ name, img.typeName (Token.make .typeDef row') = .ok name ∧ name ≠ full := by
  have hexists : (img.table .typeDef).hasRow row' = true :=
    Table.hasRow_iff.mpr ⟨hpos, by omega⟩
  cases hname : img.typeName (Token.make .typeDef row') with
  | ok name =>
    refine ⟨name, rfl, ?_⟩
    rintro rfl
    exact hfirst.not_of_lt (Nat.lt_of_lt_of_le hlt hfirst') ⟨hexists, hname⟩
  | error f =>
    have hunnamed : img.IsUnnamed row' := ⟨hexists, f, hname⟩
    rcases hbad' with rfl | hle
    · have hzero := Table.hasRow_iff.mp (hbad.holds hunnamed).1
      exact absurd hzero.1 (Nat.lt_irrefl 0)
    · exact absurd hunnamed (hbad.not_of_lt (Nat.lt_of_lt_of_le hlt hle))

/-- **Which type is found.** If a type has the name that is looked for, the first such type is found
unless a type in front of it has no name; then the search ends with the fault of the first type
that has none. -/
theorem findType_finds_first (img : Image) {full : Text} {row : Nat} (h : img.IsNamed full row) :
    ∃ first bad, IsFirst (img.IsNamed full) first ∧ IsFirst img.IsUnnamed bad
      ∧ (bad = 0 ∨ first < bad → img.findType full = .ok (Token.make .typeDef first))
      ∧ (0 < bad → bad < first → ∃ f, img.typeName (Token.make .typeDef bad) = .error f
          ∧ img.findType full = .error f) := by
  obtain ⟨first, hfirst⟩ := exists_isFirst (img.IsNamed full)
  obtain ⟨bad, hbad⟩ := exists_isFirst img.IsUnnamed
  have hnamed : img.IsNamed full first := hfirst.holds h
  refine ⟨first, bad, hfirst, hbad, fun hlate => ?_, fun hpos hlt => ?_⟩
  · exact findType_of_isNamed hnamed fun row' => passed_of_isFirst hfirst hbad
      (Table.hasRow_iff.mp hnamed.1).2 (Nat.le_refl _) (hlate.imp_right Nat.le_of_lt)
  · obtain ⟨hrow, f, hfault⟩ : img.IsUnnamed bad := by
      rcases hbad with ⟨rfl, -⟩ | ⟨hbad, -⟩
      · exact absurd hpos (Nat.lt_irrefl 0)
      · exact hbad
    exact ⟨f, hfault, findType_of_isUnnamed hrow hfault fun row' => passed_of_isFirst hfirst hbad
      (Table.hasRow_iff.mp hrow).2 hlt.le (.inr (Nat.le_refl _))⟩

end Image

namespace Assemble

/-- Three types, of which the second is said to be in itself. -/
def loopedTypes : List Step :=
  [.typeDef 0 "N" "A" 0, .typeDef 0 "N" "Loop" 0, .typeDef 0 "N" "B" 0,
    .row .nestedClass [.number 2, .number 2]]

theorem parse_loopedTypes : ∃ (results : List Int) (b : Builder) (img : Image),
    build loopedTypes = .ok (results, b) ∧ Image.parse b.bytes = .ok img
      ∧ (img.table .typeDef).rows = 3 ∧ img.IsNamed "N.A" 1 ∧ img.IsUnnamed 2
      ∧ img.IsNamed "N.B" 3 := by
  have hproper : ∀ s ∈ loopedTypes, s.Proper := by
    simp [loopedTypes, Step.Proper, TableId.columns]
  obtain ⟨results, b, img, hbuild, hparse, ⟨hfirst, hlast, hnested, htypes, hnests⟩, hread, hheaps⟩ :=
    reproduces_of_build hproper
      (p := fun b => (b.rows.get .typeDef).explicit[0]? = some [0, 1, 3, 0, 1, 1]
        ∧ (b.rows.get .typeDef).explicit[2]? = some [0, 10, 3, 0, 1, 1]
        ∧ (b.rows.get .nestedClass).explicit[0]? = some [2, 2]
        ∧ b.rowCount .typeDef = 3 ∧ b.rowCount .nestedClass = 1) (by decide +kernel)
  have henclosing := Image.enclosing_of_row hparse ((hread.rows .nestedClass).trans hnests)
    (hread.row .nestedClass 0 _ hnested)
  have hrows : (img.table .typeDef).rows = 3 := (hread.rows .typeDef).trans htypes
  have hspace : img.strings.get 3 = .ok "N" :=
    hheaps.string "N" 3 (by decide +kernel) (by decide +kernel)
  have hchains : ∀ row, img.NamesChain .typeDef (img.outerLink? .typeDef) (Token.make .typeDef row) :=
    fun row => Image.namesChain_outerLink? (Token.table?_make .typeDef row) (.inl rfl)
  -- A type that is in no other is named by itself.
  have halone : ∀ {row : Nat} {own : Text}, (Token.make .typeDef row).row = row → row ≠ 2 →
      img.NamedAs .typeDef row own → img.IsNamed own row := by
    intro row own hrow hne hown
    refine ⟨hown.1, ((hchains row).exact own).mpr ⟨[row], ?_,
      Nat.succ_le_succ (Nat.zero_le _), [own], .cons hown .nil, rfl⟩⟩
    rw [hrow]
    refine .outermost ?_
    rw [Image.outerLink?, Image.outerRow?, henclosing, if_neg hne]
    rfl
  refine ⟨results, b, img, hbuild, hparse, hrows, ?_, ⟨?_, ?_⟩, ?_⟩
  · exact halone rfl (by decide) (Image.namedAs_of_row (hread.row .typeDef 0 _ hfirst) rfl rfl
      (hheaps.string "A" 1 (by decide +kernel) (by decide +kernel)) hspace)
  · exact Table.hasRow_iff.mpr (by omega)
  · refine (hchains 2).cyclic ⟨2, 2, .refl, ?_, .refl⟩
    rw [Image.outerLink?, Image.outerRow?, henclosing]
    rfl
  · exact halone rfl (by decide) (Image.namedAs_of_row (hread.row .typeDef 2 _ hlast) rfl rfl
      (hheaps.string "B" 10 (by decide +kernel) (by decide +kernel)) hspace)

end Assemble

namespace Image

open Assemble

theorem findType_finds_first_loopedTypes : ∃ (results : List Int) (b : Builder) (img : Image),
    build loopedTypes = .ok (results, b) ∧ Image.parse b.bytes = .ok img ∧ img.IsUnnamed 2
      ∧ img.IsNamed "N.A" 1 ∧ img.findType "N.A" = .ok (Token.make .typeDef 1) := by
  obtain ⟨results, b, img, hbuild, hparse, -, hnamed, hunnamed, -⟩ := parse_loopedTypes
  obtain ⟨first, bad, hfirst, hbad, hfound, -⟩ := findType_finds_first img hnamed
  obtain rfl : first = 1 := hfirst.unique (.inr ⟨hnamed, fun row hrow =>
    (Table.hasRow_iff.mp hrow.1).1⟩)
  obtain rfl : bad = 2 := hbad.unique (.inr ⟨hunnamed, fun row ⟨hrow, f, hfault⟩ => by
    -- The first row has a name.
    have hne : row ≠ 1 := by
      rintro rfl
      rw [hnamed.2] at hfault
      cases hfault
    have hpos := (Table.hasRow_iff.mp hrow).1
    omega⟩)
  exact ⟨results, b, img, hbuild, hparse, hunnamed, hnamed, hfound (.inr (by decide))⟩

/-- The last type has a name and is not found by it, because the type in front of it has none. -/
theorem findType_stops_at_unnamed : ∃ (results : List Int) (b : Builder) (img : Image) (f : Fault),
    build loopedTypes = .ok (results, b) ∧ Image.parse b.bytes = .ok img
      ∧ (img.table .typeDef).rows < Token.rowSpan
      ∧ img.typeName (Token.make .typeDef 3) = .ok "N.B" ∧ img.findType "N.B" = .error f := by
  obtain ⟨results, b, img, hbuild, hparse, hrows, hfirst, ⟨hsecond, f, hfault⟩, hlast⟩ :=
    parse_loopedTypes
  refine ⟨results, b, img, f, hbuild, hparse, by rw [hrows]; decide, hlast.2, ?_⟩
  refine findType_of_isUnnamed hsecond hfault fun row hpos hlt => ⟨"N.A", ?_, by decide +kernel⟩
  obtain rfl : row = 1 := by omega
  exact hfirst.2

end Image

end ManagedImage
