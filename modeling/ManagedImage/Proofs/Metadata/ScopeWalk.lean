/-
The assembly a type comes from, and the name it was given before.

A qualified name takes two walks outwards: one joins the names of the types around a type,
the other looks for the assembly at the end of their scopes. The second has its own bound,
and reads scopes without asking whether their rows exist. `walkScopes` is that walk with a
record of what it reads (`definingAssemblyWithin_eq`), and along a chain that has been named
it reads just the rows of the chain (`walkScopes_of_outward`). So it inherits from the name
that the rows exist and that they are few enough.
-/
import ManagedImage.Proofs.Metadata.Nesting

set_option autoImplicit false

namespace ManagedImage

/-! ## Walks along scopes -/

/-- Where a walk along scopes ends. -/
inductive ScopeEnd where
  /-- In the image itself. -/
  | here
  /-- In a referenced assembly. -/
  | assembly (row : Nat)
  /-- At a type of another module of this assembly. -/
  | otherModule (tok : Token)
  /-- At a scope that cannot be read. -/
  | unreadable (f : Fault)
  /-- At a type, because no more references are followed. -/
  | tooDeep (tok : Token)

/-- A walk along scopes. -/
structure ScopeWalk where
  /-- The rows whose scopes it reads, in order. -/
  reads : List Nat
  /-- Where it ends. -/
  stop : ScopeEnd

/-- The walk from a token, by the scope of each row; `steps` more references may be followed. -/
def walkScopes (scope : Nat → Except Fault Token) (steps : Nat) (tok : Token) : ScopeWalk :=
  if tok.table? ≠ some .typeRef then ⟨[], .here⟩
  else match steps with
    | 0 => ⟨[], .tooDeep tok⟩
    | steps + 1 =>
      let rest : ScopeWalk := match scope tok.row with
        | .error f => ⟨[], .unreadable f⟩
        | .ok outer => match outer.table? with
          | some .assemblyRef => ⟨[], .assembly outer.row⟩
          | some .moduleRef => ⟨[], .otherModule tok⟩
          | some .typeRef => if outer.isNil then ⟨[], .here⟩ else walkScopes scope steps outer
          | _ => ⟨[], .here⟩
      ⟨tok.row :: rest.reads, rest.stop⟩

/-- The assembly at the end of a walk. -/
def ScopeEnd.assemblyName (img : Image) : ScopeEnd → Except Fault AssemblyName
  | .here => img.assemblyName
  | .assembly row => img.assemblyRefName row
  | .otherModule tok => .error (.unsupported .table Fault.noOffset
      (tok.render ++ " is scoped to a module reference (multi-module assembly)" : String))
  | .unreadable f => .error f
  | .tooDeep tok => .error (.format .table Fault.noOffset
      ("resolution scope chain too deep at " ++ tok.render : String))

/-- Where a chain of references ends whose last row has a scope that is no further reference. -/
inductive EndsIn (last : Nat) (scope : Token) : ScopeEnd → Prop
  | module (h : scope.table? = some .module) : EndsIn last scope .here
  | nil (h : scope.table? = some .typeRef) (hnil : scope.isNil = true) : EndsIn last scope .here
  | assembly (h : scope.table? = some .assemblyRef) : EndsIn last scope (.assembly scope.row)
  | moduleRef (h : scope.table? = some .moduleRef) :
      EndsIn last scope (.otherModule (Token.make .typeRef last))

section Walks

variable {scope scope' : Nat → Except Fault Token} {tok outer : Token} {steps : Nat}

theorem walkScopes_of_not_typeRef (htok : tok.table? ≠ some .typeRef) :
    walkScopes scope steps tok = ⟨[], .here⟩ := by
  rw [walkScopes.eq_def, if_pos htok]

/-- A reference whose scope is one too is passed on to it. -/
theorem walkScopes_nested (htok : tok.table? = some .typeRef) (h : scope tok.row = .ok outer)
    (houter : outer.table? = some .typeRef) (hnil : outer.isNil = false) :
    walkScopes scope (steps + 1) tok = ⟨tok.row :: (walkScopes scope steps outer).reads,
      (walkScopes scope steps outer).stop⟩ := by
  rw [walkScopes, if_neg (fun hne => hne htok)]
  simp only [h, houter, hnil, Bool.false_eq_true, if_false]

/-- Any other scope ends the walk. -/
theorem walkScopes_outermost (htok : tok.table? = some .typeRef) (h : scope tok.row = .ok outer)
    {u : TableId} (hmem : u ∈ [TableId.module, .moduleRef, .assemblyRef, .typeRef])
    (houter : outer.table? = some u) (hend : ¬ (outer.table? = some .typeRef ∧ outer.isNil = false)) :
    (walkScopes scope (steps + 1) tok).reads = [tok.row]
      ∧ EndsIn tok.row outer (walkScopes scope (steps + 1) tok).stop := by
  rw [walkScopes, if_neg (fun hne => hne htok)]
  simp only [List.mem_cons, List.not_mem_nil, or_false] at hmem
  rcases hmem with rfl | rfl | rfl | rfl
  · simp only [h, houter]
    exact ⟨trivial, .module houter⟩
  · have hend : EndsIn tok.row outer (.otherModule (Token.make .typeRef tok.row)) := .moduleRef houter
    rw [Token.make_row htok] at hend
    simp only [h, houter]
    exact ⟨trivial, hend⟩
  · simp only [h, houter]
    exact ⟨trivial, .assembly houter⟩
  · have hnil : outer.isNil = true := by
      rw [← Bool.not_eq_false]
      exact fun hnil => hend ⟨houter, hnil⟩
    simp only [h, houter, hnil, if_true]
    exact ⟨trivial, .nil houter hnil⟩

/-- **What a walk depends on** is the scopes of the rows it reads, and nothing else. -/
theorem walkScopes_congr
    (h : ∀ row ∈ (walkScopes scope steps tok).reads, scope' row = scope row) :
    walkScopes scope' steps tok = walkScopes scope steps tok := by
  induction steps generalizing tok with
  | zero => rw [walkScopes, walkScopes]
  | succ steps ih =>
    by_cases htok : tok.table? = some .typeRef
    case neg => rw [walkScopes_of_not_typeRef htok, walkScopes_of_not_typeRef htok]
    rw [walkScopes, if_neg (fun hne => hne htok)] at h ⊢
    rw [walkScopes, if_neg (fun hne => hne htok)]
    dsimp only at h ⊢
    -- The first row is read in any case, and the others are those of the rest of the walk.
    rw [h tok.row List.mem_cons_self]
    replace h := fun row hrow => h row (List.mem_cons_of_mem _ hrow)
    revert h
    cases scope tok.row with
    | error f => exact fun _ => rfl
    | ok outer =>
      dsimp only
      generalize outer.table? = u
      split
      case h_3 =>
        intro h
        by_cases hnil : outer.isNil = true
        · rw [if_pos hnil, if_pos hnil]
        · rw [if_neg hnil] at h
          rw [if_neg hnil, if_neg hnil, ih h]
      all_goals exact fun _ => rfl

end Walks

theorem EndsIn.ne_tooDeep {last : Nat} {scope : Token} {stop : ScopeEnd} (h : EndsIn last scope stop)
    (tok' : Token) : stop ≠ .tooDeep tok' := by
  cases h <;> exact fun h => nomatch h

namespace Image

variable {img : Image} {tok : Token} {steps : Nat}

/-- The walk ends where the defining assembly is looked for. -/
theorem definingAssemblyWithin_eq (img : Image) (steps : Nat) (tok : Token) :
    img.definingAssemblyWithin steps tok
      = (walkScopes img.scopeOf steps tok).stop.assemblyName img := by
  induction steps generalizing tok with
  | zero =>
    rw [definingAssemblyWithin, walkScopes]
    split <;> rfl
  | succ steps ih =>
    rw [definingAssemblyWithin, walkScopes, ← scopeOf]
    split
    case isTrue => rfl
    case isFalse =>
      cases img.scopeOf tok.row with
      | error f => rfl
      | ok outer =>
        simp only [bind, Except.bind]
        -- Only a scope that is a reference leads on; for all other tables the two are one case each.
        cases outer.table? with
        | none => rfl
        | some u =>
          cases u
          case typeRef =>
            by_cases hnil : outer.isNil = true
            · simp only [if_pos hnil]
              rfl
            · simp only [if_neg hnil]
              exact ih outer
          all_goals rfl

/-- **The walk goes along the chain.** From a reference whose chain is short enough, it reads the
rows of the chain and ends with the scope of the last one. -/
theorem walkScopes_of_outward {rows : List Nat} (htok : tok.table? = some .typeRef)
    (hchain : Outward (img.outerRow? .typeRef) tok.row rows) (hsteps : rows.length ≤ steps) :
    (walkScopes img.scopeOf steps tok).reads = rows ∧ ∃ last scope, rows.getLast? = some last
      ∧ img.scopeOf last = .ok scope ∧ EndsIn last scope (walkScopes img.scopeOf steps tok).stop := by
  induction steps generalizing tok rows with
  | zero => exact absurd (List.length_eq_zero_iff.mp (Nat.le_zero.mp hsteps)) hchain.ne_nil
  | succ steps ih =>
    obtain ⟨scope, hscope, u, hmem, htable⟩ := img.exists_scopeOf tok.row
    have hnext := outerRow?_of_scopeOf hscope
    by_cases houter : scope.table? = some .typeRef ∧ scope.isNil = false
    · rw [if_pos houter] at hnext
      obtain ⟨rest, rfl, hrest⟩ := hchain.tail hnext
      obtain ⟨hreads, last, scope', hlast, hscope', hend⟩ :=
        ih houter.1 hrest (Nat.le_of_succ_le_succ hsteps)
      rw [walkScopes_nested htok hscope houter.1 houter.2, hreads]
      refine ⟨rfl, last, scope', ?_, hscope', hend⟩
      rw [List.getLast?_cons_of_ne_nil hrest.ne_nil, hlast]
    · rw [if_neg houter] at hnext
      obtain rfl := hchain.unique (.outermost hnext)
      obtain ⟨hreads, hend⟩ := walkScopes_outermost htok hscope hmem htable houter
      exact ⟨hreads, tok.row, scope, rfl, hscope, hend⟩

/-! ## The two walks -/

/-- The walk that looks for the defining assembly of a type. -/
def scopeWalk (img : Image) (tok : Token) : ScopeWalk :=
  walkScopes img.scopeOf (maxNesting + 1) tok

/-- The walk to the defining assembly goes along the rows that a name was joined from. -/
structure ScopesAlong (img : Image) (tok : Token) (t : TableId) (rows : List Nat) : Prop where
  /-- The defining assembly is the one at the end of the walk. -/
  walk : img.definingAssembly tok = (img.scopeWalk tok).stop.assemblyName img
  /-- From a reference it reads the rows of the name, from a definition none. -/
  reads : (img.scopeWalk tok).reads = if t = .typeRef then rows else []
  /-- All rows it reads exist. -/
  exist : ∀ row ∈ (img.scopeWalk tok).reads, (img.table .typeRef).hasRow row = true
  /-- It is the same whatever the scopes of rows are that do not exist. -/
  unread : ∀ scope : Nat → Except Fault Token,
    (∀ row, (img.table .typeRef).hasRow row = true → scope row = img.scopeOf row) →
      walkScopes scope (maxNesting + 1) tok = img.scopeWalk tok
  /-- It is never given up for being too long. -/
  bounded : ∀ tok', (img.scopeWalk tok).stop ≠ .tooDeep tok'
  /-- A definition is of this image's assembly. -/
  definition : t = .typeDef → img.definingAssembly tok = img.assemblyName
  /-- A reference is of the assembly that the scope of the last row of the name refers to. -/
  reference : t = .typeRef → ∃ last scope stop, rows.getLast? = some last
    ∧ img.scopeOf last = .ok scope ∧ EndsIn last scope stop
    ∧ img.definingAssembly tok = stop.assemblyName img

/-- A name is only found for a definition or a reference. -/
theorem table?_of_typeName {name : Text} (h : img.typeName tok = .ok name) :
    ∃ t, tok.table? = some t ∧ (t = .typeDef ∨ t = .typeRef) := by
  rw [typeName, maxNesting, typeNameWithin] at h
  split at h
  · cases h
  · split at h
    · exact ⟨.typeDef, by assumption, .inl rfl⟩
    · exact ⟨.typeRef, by assumption, .inr rfl⟩
    · cases h

/-- **The two walks of a qualified name agree.** A type that has a name has it from a chain of rows,
and the walk to its defining assembly reads these rows and no other, so only rows that exist, and
ends where the name begins. -/
theorem definingAssembly_along_name {name : Text} (h : img.typeName tok = .ok name) :
    ∃ t rows, tok.table? = some t ∧ (t = .typeDef ∨ t = .typeRef)
      ∧ Outward (img.outerLink? t) tok.row rows ∧ img.SpelledBy t rows name
      ∧ img.ScopesAlong tok t rows := by
  obtain ⟨t, htok, ht⟩ := table?_of_typeName h
  obtain ⟨rows, hchain, hlength, hspelled⟩ := (typeNameWithin_eq_ok_iff htok ht).mp h
  refine ⟨t, rows, htok, ht, hchain, hspelled, ?_⟩
  have hwalk : img.definingAssembly tok = (img.scopeWalk tok).stop.assemblyName img :=
    definingAssemblyWithin_eq img _ tok
  rcases ht with rfl | rfl
  -- From a definition the walk ends where it starts.
  · have hnone : ∀ scope, walkScopes scope (maxNesting + 1) tok = ⟨[], .here⟩ := fun scope =>
      walkScopes_of_not_typeRef (by rw [htok]; decide)
    have hhere : img.scopeWalk tok = ⟨[], .here⟩ := hnone _
    refine ⟨hwalk, ?_, ?_, ?_, ?_, fun _ => ?_, fun h => (nomatch h)⟩
    · rw [hhere]
      rfl
    · rw [hhere]
      exact fun row hrow => absurd hrow List.not_mem_nil
    · exact fun scope _ => (hnone scope).trans hhere.symm
    · rw [hhere]
      exact fun tok' h => nomatch h
    · rw [hwalk, hhere]
      rfl
  -- From a reference it is as long as the chain of the name, which was short enough for the name.
  · rw [funext img.outerLink?_typeRef] at hchain
    obtain ⟨hreads, last, scope, hlast, hscope, hend⟩ := walkScopes_of_outward htok hchain hlength
    have hexist : ∀ row ∈ (img.scopeWalk tok).reads, (img.table .typeRef).hasRow row = true := by
      rw [scopeWalk, hreads]
      exact hspelled.hasRow
    refine ⟨hwalk, hreads, hexist, ?_, hend.ne_tooDeep, fun h => (nomatch h), fun _ => ?_⟩
    · exact fun scope' hsame => walkScopes_congr fun row hrow => hsame row (hexist row hrow)
    · exact ⟨last, scope, _, hlast, hscope, hend, hwalk⟩

open Assemble in
theorem definingAssembly_along_name_scopedTypes : ∃ (results : List Int) (b : Builder) (img : Image),
    build scopedTypes = .ok (results, b) ∧ Image.parse b.bytes = .ok img
      ∧ img.typeName (Token.make .typeRef 1) = .ok "N.Outer+Inner"
      ∧ (img.scopeWalk (Token.make .typeRef 1)).reads = [1, 2]
      ∧ img.definingAssembly (Token.make .typeRef 1) = img.assemblyRefName 1 := by
  obtain ⟨results, b, img, hbuild, hparse, h1, h2, -, hinner, houter⟩ := parse_scopedTypes
  have hlinks : ∀ {row outer}, img.outerRow? .typeRef row = outer →
      img.outerLink? .typeRef row = outer := fun h => (img.outerLink?_typeRef _).trans h
  have hchain : Outward (img.outerLink? .typeRef) 1 [1, 2] :=
    .nested (hlinks (outerRow?_of_scopeOf h1)) (.outermost (hlinks (outerRow?_of_scopeOf h2)))
  have hname : img.typeName (Token.make .typeRef 1) = .ok "N.Outer+Inner" :=
    (typeNameWithin_eq_ok_iff (Token.table?_make .typeRef 1) (.inr rfl)).mpr
      ⟨[1, 2], hchain, by decide, ["Inner", "N.Outer"], .cons hinner (.cons houter .nil), rfl⟩
  obtain ⟨t, rows, htok, -, hrows, -, halong⟩ := definingAssembly_along_name hname
  obtain rfl : TableId.typeRef = t := Option.some.inj ((Token.table?_make .typeRef 1).symm.trans htok)
  obtain rfl : rows = [1, 2] := hrows.unique hchain
  obtain ⟨last, scope, stop, hlast, hscope, hend, hassembly⟩ := halong.reference rfl
  obtain rfl : 2 = last := Option.some.inj hlast
  obtain rfl : Token.make .assemblyRef 1 = scope := Except.ok.inj (h2.symm.trans hscope)
  refine ⟨results, b, img, hbuild, hparse, hname, halong.reads, hassembly.trans ?_⟩
  cases hend with
  | assembly => rfl
  | module h | nil h | moduleRef h => exact absurd h (by decide)

end Image

end ManagedImage
