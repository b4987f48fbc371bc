/-
A type's name is the chain of the types around it.

The chain is followed by recursion with a bound, over tables that nobody has checked. The
statement is about the chain itself: `Outward` lists its rows up to one that nothing
encloses, if there is one, and a cyclic chain has no such list (`Outward.not_cyclic`). The
induction on the bound then says that a name within `steps` steps is a chain of at most
`steps` rows, each of them a row that exists and whose strings can be read
(`typeNameWithin_eq_ok_iff`).

One detail stands between this and the tables. The row that encloses a defined type is a
cell of thirty-two bits, and it is handed on as a token, which keeps twenty-four of them:
the row that is checked and named is not always the row the table says. So the chain is
stated for both readings of a link, and they agree as long as the links are narrow.
-/
import Mathlib.Logic.Relation
import ManagedImage.Metadata.Names
import ManagedImage.Proofs.Metadata.CodedIndex
import ManagedImage.Proofs.Metadata.TableLayout
import ManagedImage.Proofs.Metadata.Search
import ManagedImage.Proofs.Assemble.Lossless

set_option autoImplicit false

namespace ManagedImage

/-! ## Chains -/

/-- The rows from one outwards, up to the first from which `next` leads nowhere. -/
inductive Outward (next : Nat → Option Nat) : Nat → List Nat → Prop
  | outermost {row : Nat} (h : next row = none) : Outward next row [row]
  | nested {row outer : Nat} {rows : List Nat} (h : next row = some outer)
      (rest : Outward next outer rows) : Outward next row (row :: rows)

/-- One row leads to another, in no, one or several links. -/
def Leads (next : Nat → Option Nat) : Nat → Nat → Prop :=
  Relation.ReflTransGen fun row outer => next row = some outer

/-- The chain from a row comes back to a row it has been at. -/
def Cyclic (next : Nat → Option Nat) (row : Nat) : Prop :=
  ∃ again outer, Leads next row again ∧ next again = some outer ∧ Leads next outer again

namespace Outward

variable {next next' : Nat → Option Nat} {row : Nat} {rows rows' : List Nat}

/-- A chain starts with its row. -/
theorem eq_cons (h : Outward next row rows) : ∃ rest, rows = row :: rest := by
  cases h with
  | outermost => exact ⟨[], rfl⟩
  | nested => exact ⟨_, rfl⟩

theorem ne_nil (h : Outward next row rows) : rows ≠ [] := by
  obtain ⟨rest, rfl⟩ := h.eq_cons
  exact List.cons_ne_nil _ _

/-- Behind the first row of a chain comes the chain of the row it leads to. -/
theorem tail (h : Outward next row rows) {outer : Nat} (hnext : next row = some outer) :
    ∃ rest, rows = row :: rest ∧ Outward next outer rest := by
  cases h with
  | outermost hnone =>
    rw [hnone] at hnext
    cases hnext
  | @nested _ outer' rest hsome hrest =>
    obtain rfl := Option.some.inj (hsome.symm.trans hnext)
    exact ⟨rest, rfl, hrest⟩

theorem unique (h : Outward next row rows) (h' : Outward next row rows') : rows = rows' := by
  induction h generalizing rows' with
  | outermost hnone =>
    cases h' with
    | outermost => rfl
    | nested hsome =>
      rw [hnone] at hsome
      cases hsome
  | nested hsome _ ih =>
    obtain ⟨rest, rfl, hrest⟩ := h'.tail hsome
    rw [ih hrest]

/-- A row that the first one leads to has the chain that is left there. -/
theorem of_leads (h : Outward next row rows) {row' : Nat} (hleads : Leads next row row') :
    ∃ rest, Outward next row' rest ∧ rest.length ≤ rows.length := by
  induction hleads with
  | refl => exact ⟨rows, h, Nat.le_refl _⟩
  | tail _ hnext ih =>
    obtain ⟨rest, hrest, hle⟩ := ih
    obtain ⟨rest', rfl, hrest'⟩ := hrest.tail hnext
    exact ⟨rest', hrest', (Nat.le_succ _).trans hle⟩

/-- A chain that ends never comes back: what is left of it only gets shorter. -/
theorem not_cyclic (h : Outward next row rows) : ¬ Cyclic next row := by
  rintro ⟨again, outer, hleads, hnext, hback⟩
  obtain ⟨left, hleft, -⟩ := h.of_leads hleads
  obtain ⟨rest, rfl, hrest⟩ := hleft.tail hnext
  obtain ⟨left', hleft', hle⟩ := hrest.of_leads hback
  rw [hleft'.unique hleft, List.length_cons] at hle
  exact Nat.not_succ_le_self _ hle

/-- A chain looks at nothing but the links along it. -/
theorem congr (h : Outward next row rows)
    (hsame : ∀ row', Leads next row row' → next' row' = next row') : Outward next' row rows := by
  induction h with
  | outermost hnone => exact .outermost ((hsame _ .refl).trans hnone)
  | nested hsome _ ih =>
    refine .nested ((hsame _ .refl).trans hsome) (ih fun row' hleads => hsame row' ?_)
    exact Relation.ReflTransGen.head hsome hleads

end Outward

/-- Joining one part more. -/
theorem Text.join_concat {sep t : Text} {parts : List Text} (h : parts ≠ []) :
    join sep (parts ++ [t]) = join sep parts ++ sep ++ t := by
  cases parts with
  | nil => exact absurd rfl h
  | cons first rest => rw [List.cons_append, join, join, List.foldl_append, List.foldl_cons, List.foldl_nil]

/-- A token keeps no more of a row than fits. -/
theorem Token.make_mod (t : TableId) (row : Nat) : make t (row % rowSpan) = make t row := by
  rw [make, make, ofParts, ofParts, Nat.mod_mod]

namespace CodedKind

/-- Every tag of a resolution scope has its table. -/
theorem decode_resolutionScope (v : Nat) :
    ∃ t ∈ [TableId.module, .moduleRef, .assemblyRef, .typeRef],
      resolutionScope.decode v = .ok (Token.make t (v / 4)) := by
  have htag : v % 4 = 0 ∨ v % 4 = 1 ∨ v % 4 = 2 ∨ v % 4 = 3 := by omega
  rw [decode, show resolutionScope.tagSpan = 4 from rfl]
  rcases htag with h | h | h | h <;> rw [h]
  · exact ⟨.module, by decide, rfl⟩
  · exact ⟨.moduleRef, by decide, rfl⟩
  · exact ⟨.assemblyRef, by decide, rfl⟩
  · exact ⟨.typeRef, by decide, rfl⟩

end CodedKind

/-! ## The types around a type -/

namespace Image

/-- The scope that a type reference names. -/
def scopeOf (img : Image) (row : Nat) : Except Fault Token :=
  CodedKind.resolutionScope.decode ((img.table .typeRef).cell row 0)

/-- The row of the same table whose type is around that of a row: the enclosing type of a
definition, and the scope of a reference if that is a reference too. -/
def outerRow? (img : Image) (t : TableId) (row : Nat) : Option Nat :=
  match t with
  | .typeDef => if img.enclosing row = 0 then none else some (img.enclosing row)
  | .typeRef => (img.scopeOf row).toOption.bind fun scope =>
    if scope.table? = some .typeRef ∧ scope.isNil = false then some scope.row else none
  | _ => none

/-- What a token keeps of such a row. -/
def outerLink? (img : Image) (t : TableId) (row : Nat) : Option Nat :=
  (img.outerRow? t row).map (· % Token.rowSpan)

/-- The row exists and its two strings can be read; together they are the type's own name. -/
def NamedAs (img : Image) (t : TableId) (row : Nat) (own : Text) : Prop :=
  (img.table t).hasRow row = true ∧ ∃ name space : Text,
    img.strings.get ((img.table t).cell row 1) = .ok name
      ∧ img.strings.get ((img.table t).cell row 2) = .ok space ∧ own = qualify space name

/-- The rows all have names of their own, which make up a name from the last row to the first. -/
def SpelledBy (img : Image) (t : TableId) (rows : List Nat) (name : Text) : Prop :=
  ∃ owns, List.Forall₂ (img.NamedAs t) rows owns ∧ name = Text.join "+" owns.reverse

/-- The chain of types from a row ends after at most as many steps as are followed, and spells a
name. -/
def ChainSpells (img : Image) (t : TableId) (next : Nat → Option Nat) (row : Nat) (name : Text) :
    Prop :=
  ∃ rows, Outward next row rows ∧ rows.length ≤ maxNesting + 1 ∧ img.SpelledBy t rows name

/-- Naming a type is exactly following the chain of types around it. -/
structure NamesChain (img : Image) (t : TableId) (next : Nat → Option Nat) (tok : Token) : Prop where
  /-- There is a name if the chain ends in time and every row of it has a name; it is what the
  chain spells. -/
  exact : ∀ name, img.typeName tok = .ok name ↔ img.ChainSpells t next tok.row name
  /-- A chain that comes back has no end, and there is a fault. -/
  cyclic : Cyclic next tok.row → ∃ f, img.typeName tok = .error f

/-- No link of the chain from a row is cut off by a token. -/
def NarrowLinks (img : Image) (t : TableId) (row : Nat) : Prop :=
  ∀ row' outer, Leads (img.outerRow? t) row row' → img.outerRow? t row' = some outer →
    outer < Token.rowSpan

variable {img : Image} {t : TableId} {tok : Token} {row steps : Nat} {name : Text}

theorem ownTypeName_eq_ok_iff {own : Text} (hrow : (img.table t).hasRow row = true) :
    img.ownTypeName t row = .ok own ↔ img.NamedAs t row own := by
  rw [ownTypeName, NamedAs, and_iff_right hrow]
  cases img.strings.get ((img.table t).cell row 1) with
  | error f => exact ⟨fun h => (nomatch h), fun ⟨_, _, h, _⟩ => (nomatch h)⟩
  | ok name =>
    cases img.strings.get ((img.table t).cell row 2) with
    | error f => exact ⟨fun h => (nomatch h), fun ⟨_, _, _, h, _⟩ => (nomatch h)⟩
    | ok space =>
      constructor
      · intro h
        exact ⟨name, space, rfl, rfl, (Except.ok.inj h).symm⟩
      · rintro ⟨name', space', hname, hspace, rfl⟩
        rw [Except.ok.inj hname, Except.ok.inj hspace]
        rfl

/-- The row of a scope is that of a token, so nothing of it is cut off. -/
theorem outerLink?_typeRef (img : Image) (row : Nat) :
    img.outerLink? .typeRef row = img.outerRow? .typeRef row := by
  rw [outerLink?]
  cases h : img.outerRow? .typeRef row with
  | none => rfl
  | some outer =>
    have hlt : outer < Token.rowSpan := by
      obtain ⟨scope, -, hscope⟩ := Option.bind_eq_some_iff.mp h
      split at hscope
      case isTrue =>
        rw [← Option.some.inj hscope]
        exact Nat.mod_lt _ (by decide)
      case isFalse => cases hscope
    rw [Option.map_some, Nat.mod_eq_of_lt hlt]

/-! ## One step -/

/-- The scope of a reference can always be read. -/
theorem exists_scopeOf (img : Image) (row : Nat) : ∃ scope, img.scopeOf row = .ok scope
    ∧ ∃ u ∈ [TableId.module, .moduleRef, .assemblyRef, .typeRef], scope.table? = some u := by
  obtain ⟨u, hu, hscope⟩ := CodedKind.decode_resolutionScope ((img.table .typeRef).cell row 0)
  exact ⟨_, hscope, u, hu, Token.table?_make u _⟩

theorem outerRow?_of_scopeOf {scope : Token} (h : img.scopeOf row = .ok scope) :
    img.outerRow? .typeRef row
      = if scope.table? = some .typeRef ∧ scope.isNil = false then some scope.row else none := by
  rw [outerRow?, h]
  rfl

theorem outerType_of_scopeOf {scope : Token} (h : img.scopeOf row = .ok scope) :
    img.outerType .typeRef row
      = .ok (if scope.table? = some .typeRef ∧ scope.isNil = false then scope else Token.null) := by
  have hread : img.outerType .typeRef row = (img.scopeOf row).bind fun scope =>
      .ok (if scope.table? = some .typeRef && !scope.isNil then scope else Token.null) := rfl
  rw [hread, h, Except.bind]
  simp only [Bool.and_eq_true, decide_eq_true_eq, Bool.not_eq_true']

/-- **One step outwards**, for definitions and references alike. -/
theorem typeNameWithin_succ (htok : tok.table? = some t) (ht : t = .typeDef ∨ t = .typeRef) :
    img.typeNameWithin (steps + 1) tok =
      if (img.table t).hasRow tok.row = true then do
        let own ← img.ownTypeName t tok.row
        match img.outerLink? t tok.row with
        | none => return own
        | some outer => return (← img.typeNameWithin steps (Token.make t outer)) ++ "+" ++ own
      else .error (tokenRangeFault tok) := by
  have hrow : img.hasRow tok = (img.table t).hasRow tok.row := by rw [hasRow, htok]
  rw [typeNameWithin, hrow]
  cases (img.table t).hasRow tok.row with
  | false => rfl
  | true =>
    rcases ht with rfl | rfl
    -- A definition is continued whenever its enclosing row is not zero, even if a token of that
    -- row is nil.
    · simp only [htok, Bool.not_true, Bool.false_eq_true, if_false, if_true]
      refine congrArg _ (funext fun own => ?_)
      rw [outerLink?, outerRow?, outerType]
      by_cases hnone : img.enclosing tok.row = 0
      · simp only [if_pos hnone, Option.map_none]
      · simp only [if_neg hnone, Option.map_some, Token.make_mod]
        rfl
    -- A reference is continued by its scope itself, if that is a reference and not nil.
    · obtain ⟨scope, hscope, -⟩ := img.exists_scopeOf tok.row
      simp only [htok, Bool.not_true, Bool.false_eq_true, if_false, if_true]
      refine congrArg _ (funext fun own => ?_)
      rw [outerLink?_typeRef, outerRow?_of_scopeOf hscope, outerType_of_scopeOf hscope]
      by_cases houter : scope.table? = some .typeRef ∧ scope.isNil = false
      · have hmake : Token.make .typeRef scope.row = scope := Token.make_row houter.1
        rw [if_pos houter, if_pos houter]
        simp only [hmake, bind, Except.bind, houter.2, Bool.false_eq_true, if_false]
      · rw [if_neg houter, if_neg houter]
        rfl

/-- A name within one step more: the type's own, or that of the type around it and its own. -/
theorem typeNameWithin_succ_eq_ok_iff (htok : tok.table? = some t)
    (ht : t = .typeDef ∨ t = .typeRef) :
    img.typeNameWithin (steps + 1) tok = .ok name ↔ ∃ own, img.NamedAs t tok.row own
      ∧ match img.outerLink? t tok.row with
        | none => own = name
        | some outer => ∃ before, img.typeNameWithin steps (Token.make t outer) = .ok before
            ∧ before ++ "+" ++ own = name := by
  rw [typeNameWithin_succ htok ht]
  split
  case isFalse hrow => exact ⟨fun h => (nomatch h), fun ⟨own, hown, _⟩ => absurd hown.1 hrow⟩
  case isTrue hrow =>
    simp only [← ownTypeName_eq_ok_iff hrow]
    cases img.ownTypeName t tok.row with
    | error f => exact ⟨fun h => (nomatch h), fun ⟨own, hown, _⟩ => (nomatch hown)⟩
    | ok own =>
      cases img.outerLink? t tok.row with
      | none => simp only [bind, Except.bind, pure, Except.pure, Except.ok.injEq, exists_eq_left']
      | some outer =>
        cases hbefore : img.typeNameWithin steps (Token.make t outer) with
        | error f =>
          simp only [bind, Except.bind, hbefore, reduceCtorEq, false_and, exists_false, and_false]
        | ok before =>
          simp only [bind, Except.bind, pure, Except.pure, hbefore, Except.ok.injEq, exists_eq_left']

/-! ## All steps -/

theorem spelledBy_singleton : img.SpelledBy t [row] name ↔ img.NamedAs t row name := by
  constructor
  · rintro ⟨owns, hnamed, rfl⟩
    obtain ⟨own, _, hown, hrest, rfl⟩ := List.forall₂_cons_left_iff.mp hnamed
    obtain rfl := List.forall₂_nil_left_iff.mp hrest
    exact hown
  · intro hown
    exact ⟨[name], .cons hown .nil, rfl⟩

/-- Every row that a name is made of exists. -/
theorem SpelledBy.hasRow {rows : List Nat} (h : img.SpelledBy t rows name) :
    ∀ row ∈ rows, (img.table t).hasRow row = true := by
  obtain ⟨owns, hnamed, -⟩ := h
  exact ((List.forall₂_and_left _ _).mp hnamed).1

/-- One row more inside puts its own name behind. -/
theorem spelledBy_cons {rows : List Nat} (hrows : rows ≠ []) :
    img.SpelledBy t (row :: rows) name ↔ ∃ own outer, img.NamedAs t row own
      ∧ img.SpelledBy t rows outer ∧ name = outer ++ "+" ++ own := by
  have hjoin : ∀ {own : Text} {owns : List Text}, List.Forall₂ (img.NamedAs t) rows owns →
      Text.join "+" (own :: owns).reverse = Text.join "+" owns.reverse ++ "+" ++ own := by
    intro own owns hnamed
    rw [List.reverse_cons]
    refine Text.join_concat fun hnil => hrows ?_
    rw [List.reverse_eq_nil_iff.mp hnil] at hnamed
    exact List.forall₂_nil_right_iff.mp hnamed
  constructor
  · rintro ⟨_, hnamed, rfl⟩
    obtain ⟨own, owns, hown, hrest, rfl⟩ := List.forall₂_cons_left_iff.mp hnamed
    exact ⟨own, _, hown, ⟨owns, hrest, rfl⟩, hjoin hrest⟩
  · rintro ⟨own, _, hown, ⟨owns, hrest, rfl⟩, rfl⟩
    exact ⟨own :: owns, .cons hown hrest, (hjoin hrest).symm⟩

/-- **A name within some steps** is a chain of as many rows at most. -/
theorem typeNameWithin_eq_ok_iff (htok : tok.table? = some t) (ht : t = .typeDef ∨ t = .typeRef) :
    img.typeNameWithin steps tok = .ok name ↔ ∃ rows, Outward (img.outerLink? t) tok.row rows
      ∧ rows.length ≤ steps ∧ img.SpelledBy t rows name := by
  induction steps generalizing tok name with
  | zero =>
    refine ⟨fun h => ?_, fun ⟨rows, hchain, hle, _⟩ => ?_⟩
    · rw [typeNameWithin] at h
      cases h
    · exact absurd (List.length_eq_zero_iff.mp (Nat.le_zero.mp hle)) hchain.ne_nil
  | succ steps ih =>
    rw [typeNameWithin_succ_eq_ok_iff htok ht]
    cases hlink : img.outerLink? t tok.row with
    | none =>
      constructor
      · rintro ⟨own, hown, rfl⟩
        exact ⟨[tok.row], .outermost hlink, Nat.succ_le_succ (Nat.zero_le _),
          spelledBy_singleton.mpr hown⟩
      · rintro ⟨rows, hchain, -, hspelled⟩
        rw [hchain.unique (.outermost hlink)] at hspelled
        exact ⟨name, spelledBy_singleton.mp hspelled, rfl⟩
    | some outer =>
      -- What a token keeps of a row, it keeps of it again.
      have hrow : (Token.make t outer).row = outer := by
        obtain ⟨_, -, rfl⟩ := Option.map_eq_some_iff.mp hlink
        rw [Token.row_make, Nat.mod_mod]
      have ih : ∀ before, img.typeNameWithin steps (Token.make t outer) = .ok before
          ↔ ∃ rows, Outward (img.outerLink? t) outer rows ∧ rows.length ≤ steps
            ∧ img.SpelledBy t rows before := by
        intro before
        rw [ih (Token.table?_make t outer), hrow]
      constructor
      · rintro ⟨own, hown, before, hbefore, rfl⟩
        obtain ⟨rows, hchain, hle, hspelled⟩ := (ih before).mp hbefore
        exact ⟨tok.row :: rows, .nested hlink hchain, Nat.succ_le_succ hle,
          (spelledBy_cons hchain.ne_nil).mpr ⟨own, before, hown, hspelled, rfl⟩⟩
      · rintro ⟨rows, hchain, hle, hspelled⟩
        obtain ⟨rest, rfl, hrest⟩ := hchain.tail hlink
        obtain ⟨own, before, hown, hbefore, rfl⟩ :=
          (spelledBy_cons hrest.ne_nil).mp hspelled
        exact ⟨own, hown, before,
          (ih before).mpr ⟨rest, hrest, Nat.le_of_succ_le_succ hle, hbefore⟩, rfl⟩

/-- A chain that spells every name there is also tells where there is none. -/
theorem NamesChain.of_exact {next : Nat → Option Nat}
    (h : ∀ name, img.typeName tok = .ok name ↔ img.ChainSpells t next tok.row name) :
    img.NamesChain t next tok := by
  refine ⟨h, fun hcyclic => ?_⟩
  cases hname : img.typeName tok with
  | error f => exact ⟨f, rfl⟩
  | ok name =>
    obtain ⟨rows, hchain, -⟩ := (h name).mp hname
    exact absurd hcyclic hchain.not_cyclic

theorem namesChain_outerLink? (htok : tok.table? = some t) (ht : t = .typeDef ∨ t = .typeRef) :
    img.NamesChain t (img.outerLink? t) tok :=
  .of_exact fun _ => typeNameWithin_eq_ok_iff htok ht

/-- Where no link is cut off, both chains spell the same. -/
theorem NarrowLinks.chainSpells_iff (h : img.NarrowLinks t row) :
    img.ChainSpells t (img.outerLink? t) row name ↔ img.ChainSpells t (img.outerRow? t) row name := by
  -- Along the chain of the tables the two readings of a link agree, so neither leaves it.
  have hsame : ∀ row', Leads (img.outerRow? t) row row' →
      img.outerLink? t row' = img.outerRow? t row' := by
    intro row' hleads
    rw [outerLink?]
    cases hnext : img.outerRow? t row' with
    | none => rfl
    | some outer => rw [Option.map_some, Nat.mod_eq_of_lt (h row' outer hleads hnext)]
  have hleads : ∀ row', Leads (img.outerLink? t) row row' → Leads (img.outerRow? t) row row' := by
    intro row' hleads
    induction hleads with
    | refl => exact .refl
    | tail _ hnext ih => exact ih.tail ((hsame _ ih).symm.trans hnext)
  refine exists_congr fun rows => and_congr_left fun _ => ⟨fun hchain => ?_, fun hchain => ?_⟩
  · exact hchain.congr fun row' hlead => (hsame row' (hleads row' hlead)).symm
  · exact hchain.congr hsame

end Image

/-! ## Types that are known -/

namespace Image

variable {img : Image} {t : TableId} {row : Nat}

theorem namedAs_of_row {cells : List Nat} {i j : Nat} {name space : Text}
    (hrow : (img.table t).row row = .ok cells) (hi : cells[1]? = some i) (hj : cells[2]? = some j)
    (hname : img.strings.get i = .ok name) (hspace : img.strings.get j = .ok space) :
    img.NamedAs t row (qualify space name) := by
  obtain ⟨hexists, hcells⟩ := Table.cell_of_row hrow
  refine ⟨hexists, name, space, ?_, ?_, rfl⟩
  · rw [hcells 1 i hi, hname]
  · rw [hcells 2 j hj, hspace]

theorem scopeOf_of_row {cells : List Nat} {v : Nat} (hrow : (img.table .typeRef).row row = .ok cells)
    (hv : cells[0]? = some v) : img.scopeOf row = CodedKind.resolutionScope.decode v := by
  rw [scopeOf, (Table.cell_of_row hrow).2 0 v hv]

/-- A single row of nested types is about one type, and no other is nested. -/
theorem enclosing_of_row {data : ByteArray} {inner outer : Nat} {cells : List Nat}
    (hparse : Image.parse data = .ok img)
    (hone : (img.table .nestedClass).rows = 1)
    (hrow : (img.table .nestedClass).row 1 = .ok (inner :: outer :: cells)) (row : Nat) :
    img.enclosing row = if row = inner then outer else 0 := by
  have hcol : 0 < (img.table .nestedClass).layout.columns.size := by
    rw [(schema_of_parse hparse .nestedClass).2]
    decide
  obtain ⟨hexists, hcells⟩ := Table.cell_of_row hrow
  have hordered : (img.table .nestedClass).Ascending 0 := fun row hpos hlt => by omega
  have hfound : IsFirst ((img.table .nestedClass).Holds 0 row)
      ((img.table .nestedClass).search (0 : Nat) row) :=
    (Table.searchRange?_isSpan hcol fun _ => hordered).isFirst
  -- Every row that holds a type is the first, which holds the one it is about.
  have hholds : ∀ found, (img.table .nestedClass).Holds 0 row found → found = 1 ∧ row = inner := by
    intro found hfound
    obtain rfl : found = 1 := by
      have hle := hfound.row_le
      omega
    exact ⟨rfl, hfound.2.symm.trans (hcells 0 inner rfl)⟩
  by_cases heq : row = inner
  · have hfirst : IsFirst ((img.table .nestedClass).Holds 0 row) 1 :=
      .inr ⟨⟨hexists, heq ▸ hcells 0 inner rfl⟩, fun found hfound => (hholds found hfound).1.ge⟩
    rw [if_pos heq, ← hcells 1 outer rfl]
    exact congrArg (fun found => (img.table .nestedClass).cell found 1) (hfound.unique hfirst)
  · have hnone : IsFirst ((img.table .nestedClass).Holds 0 row) 0 :=
      .inl ⟨rfl, fun found hfound => heq (hholds found hfound).2⟩
    rw [if_neg heq]
    exact congrArg (fun found => (img.table .nestedClass).cell found 1) (hfound.unique hnone)

end Image

namespace Assemble

/-- A reference within a reference to a type of another assembly, and one within itself. -/
def scopedTypes : List Step :=
  [.row .typeRef [.number 11, .string "Inner", .string ""],
    .row .typeRef [.number 6, .string "Outer", .string "N"],
    .row .typeRef [.number 15, .string "Loop", .string ""],
    .row .assemblyRef [.number 1, .number 2, .number 3, .number 4, .number 0, .number 0,
      .string "Lib", .number 0, .number 0]]

theorem parse_scopedTypes : ∃ (results : List Int) (b : Builder) (img : Image),
    build scopedTypes = .ok (results, b) ∧ Image.parse b.bytes = .ok img
      ∧ img.scopeOf 1 = .ok (Token.make .typeRef 2)
      ∧ img.scopeOf 2 = .ok (Token.make .assemblyRef 1)
      ∧ img.scopeOf 3 = .ok (Token.make .typeRef 3)
      ∧ img.NamedAs .typeRef 1 "Inner" ∧ img.NamedAs .typeRef 2 "N.Outer" := by
  have hproper : ∀ s ∈ scopedTypes, s.Proper := by simp [scopedTypes, Step.Proper, TableId.columns]
  obtain ⟨results, b, img, hbuild, hparse, ⟨h1, h2, h3⟩, hread, hheaps⟩ := reproduces_of_build hproper
    (p := fun b => (b.rows.get .typeRef).explicit[0]? = some [11, 1, 0]
      ∧ (b.rows.get .typeRef).explicit[1]? = some [6, 7, 13]
      ∧ (b.rows.get .typeRef).explicit[2]? = some [15, 15, 0]) (by decide +kernel)
  have hrow1 := hread.row .typeRef 0 _ h1
  have hrow2 := hread.row .typeRef 1 _ h2
  have hrow3 := hread.row .typeRef 2 _ h3
  refine ⟨results, b, img, hbuild, hparse, ?_, ?_, ?_, ?_, ?_⟩
  · exact (Image.scopeOf_of_row hrow1 rfl).trans (by rfl)
  · exact (Image.scopeOf_of_row hrow2 rfl).trans (by rfl)
  · exact (Image.scopeOf_of_row hrow3 rfl).trans (by rfl)
  · exact Image.namedAs_of_row hrow1 rfl rfl
      (hheaps.string "Inner" 1 (by decide +kernel) (by decide +kernel))
      (hheaps.string "" 0 (by decide +kernel) (by decide +kernel))
  · exact Image.namedAs_of_row hrow2 rfl rfl
      (hheaps.string "Outer" 7 (by decide +kernel) (by decide +kernel))
      (hheaps.string "N" 13 (by decide +kernel) (by decide +kernel))

end Assemble

/-! ## Names -/

namespace Image

/-- **A type's name is its nesting chain.** Naming a definition or a reference ends with the names
along the chain of the rows that tokens keep of the types around it, outermost first, or with a
fault: if the chain is longer than the steps that are followed, comes back to where it was, or has
a row that does not exist or cannot be read. If no link is cut off by a token, as none of a
reference is, this is the chain that the tables describe. -/
theorem typeName_is_nesting (img : Image) {tok : Token} {t : TableId} (htok : tok.table? = some t)
    (ht : t = .typeDef ∨ t = .typeRef) :
    img.NamesChain t (img.outerLink? t) tok
      ∧ (t = .typeRef ∨ img.NarrowLinks t tok.row → img.NamesChain t (img.outerRow? t) tok) := by
  have hlinks : img.NamesChain t (img.outerLink? t) tok := namesChain_outerLink? htok ht
  refine ⟨hlinks, ?_⟩
  rintro (rfl | hnarrow)
  · rwa [← funext (img.outerLink?_typeRef)]
  · exact .of_exact fun name => (hlinks.exact name).trans hnarrow.chainSpells_iff

open Assemble in
theorem typeName_is_nesting_scopedTypes : ∃ (results : List Int) (b : Builder) (img : Image),
    build scopedTypes = .ok (results, b) ∧ Image.parse b.bytes = .ok img
      ∧ img.typeName (Token.make .typeRef 1) = .ok "N.Outer+Inner"
      ∧ ∃ f, img.typeName (Token.make .typeRef 3) = .error f := by
  obtain ⟨results, b, img, hbuild, hparse, h1, h2, h3, hinner, houter⟩ := parse_scopedTypes
  have hnames : ∀ row, img.NamesChain .typeRef (img.outerRow? .typeRef) (Token.make .typeRef row) :=
    fun row => (typeName_is_nesting img (Token.table?_make .typeRef row) (.inr rfl)).2 (.inl rfl)
  refine ⟨results, b, img, hbuild, hparse, ?_, ?_⟩
  · refine ((hnames 1).exact _).mpr ⟨[1, 2], ?_, by decide, ["Inner", "N.Outer"], ?_, rfl⟩
    · exact .nested (outerRow?_of_scopeOf h1) (.outermost (outerRow?_of_scopeOf h2))
    · exact .cons hinner (.cons houter .nil)
  · exact (hnames 3).cyclic ⟨3, 3, .refl, outerRow?_of_scopeOf h3, .refl⟩

end Image

namespace Assemble

/-- A type said to be in a type far beyond the last one, whose row has the low bits of another. -/
def outerBeyond : List Step :=
  [.row .nestedClass [.number 1, .number 0x1000002], .typeDef 0 "N" "Inner" 0,
    .typeDef 0 "N" "Other" 0, .pad .typeDef 65534]

theorem parse_outerBeyond : ∃ (results : List Int) (b : Builder) (img : Image),
    build outerBeyond = .ok (results, b) ∧ Image.parse b.bytes = .ok img
      ∧ img.enclosing 1 = 0x1000002 ∧ img.enclosing 2 = 0 ∧ (img.table .typeDef).rows = 65536
      ∧ img.NamedAs .typeDef 1 "N.Inner" ∧ img.NamedAs .typeDef 2 "N.Other" := by
  have hproper : ∀ s ∈ outerBeyond, s.Proper := by simp [outerBeyond, Step.Proper, TableId.columns]
  obtain ⟨results, b, img, hbuild, hparse, ⟨hnested, hinner, hother, htypes, hnests⟩, hread, hheaps⟩ :=
    reproduces_of_build hproper
      (p := fun b => (b.rows.get .nestedClass).explicit[0]? = some [1, 0x1000002]
        ∧ (b.rows.get .typeDef).explicit[0]? = some [0, 1, 7, 0, 1, 1]
        ∧ (b.rows.get .typeDef).explicit[1]? = some [0, 9, 7, 0, 1, 1]
        ∧ b.rowCount .typeDef = 65536 ∧ b.rowCount .nestedClass = 1) (by decide +kernel)
  have henclosing := Image.enclosing_of_row hparse ((hread.rows .nestedClass).trans hnests)
    (hread.row .nestedClass 0 _ hnested)
  have hspace : img.strings.get 7 = .ok "N" :=
    hheaps.string "N" 7 (by decide +kernel) (by decide +kernel)
  refine ⟨results, b, img, hbuild, hparse, henclosing 1, henclosing 2,
    (hread.rows .typeDef).trans htypes, ?_, ?_⟩
  · exact Image.namedAs_of_row (hread.row .typeDef 0 _ hinner) rfl rfl
      (hheaps.string "Inner" 1 (by decide +kernel) (by decide +kernel)) hspace
  · exact Image.namedAs_of_row (hread.row .typeDef 1 _ hother) rfl rfl
      (hheaps.string "Other" 9 (by decide +kernel) (by decide +kernel)) hspace

end Assemble

open Assemble in
/-- The chain of the first type has a row that does not exist, and yet the type has a name. -/
theorem Image.typeName_of_missing_outer : ∃ (results : List Int) (b : Builder) (img : Image),
    build outerBeyond = .ok (results, b) ∧ Image.parse b.bytes = .ok img
      ∧ img.typeName (Token.make .typeDef 1) = .ok "N.Other+N.Inner"
      ∧ img.outerRow? .typeDef 1 = some 0x1000002
      ∧ (img.table .typeDef).hasRow 0x1000002 = false
      ∧ ¬ ∃ name, img.ChainSpells .typeDef (img.outerRow? .typeDef) 1 name := by
  obtain ⟨results, b, img, hbuild, hparse, henclosing, houtermost, hrows, hinner, hother⟩ :=
    parse_outerBeyond
  have hbeyond : img.outerRow? .typeDef 1 = some 0x1000002 := by
    rw [outerRow?, henclosing]
    rfl
  have hmissing : (img.table .typeDef).hasRow 0x1000002 = false := by
    rw [Bool.eq_false_iff, Ne, Table.hasRow_iff]
    omega
  refine ⟨results, b, img, hbuild, hparse, ?_, hbeyond, hmissing, ?_⟩
  · refine ((namesChain_outerLink? (Token.table?_make .typeDef 1) (.inl rfl)).exact _).mpr
      ⟨[1, 2], .nested ?_ (.outermost ?_), by decide, ["N.Inner", "N.Other"],
        .cons hinner (.cons hother .nil), rfl⟩
    · rw [outerLink?, show (Token.make .typeDef 1).row = 1 from rfl, hbeyond]
      rfl
    · rw [outerLink?, outerRow?, houtermost]
      rfl
  · rintro ⟨name, rows, hchain, -, owns, hnamed, -⟩
    obtain ⟨rest, rfl, hrest⟩ := hchain.tail hbeyond
    obtain ⟨tail, rfl⟩ := hrest.eq_cons
    obtain ⟨_, _, _, hrows, _⟩ := List.forall₂_cons_left_iff.mp hnamed
    obtain ⟨_, _, hexists, _, _⟩ := List.forall₂_cons_left_iff.mp hrows
    exact Bool.false_ne_true (hmissing.symm.trans hexists.1)

end ManagedImage
