/-
The metadata tables by name.

The format knows forty-five tables, numbered from zero in the order below; a
token can carry any byte as table number, so a number need not name a table.
`TableMap` holds one value for each table.
-/
import ManagedImage.Text

set_option autoImplicit false

namespace ManagedImage

/-- A metadata table, in the order of the table numbers. -/
inductive TableId where
  | module | typeRef | typeDef | fieldPtr | field | methodPtr | methodDef | paramPtr | param
  | interfaceImpl | memberRef | constant | customAttribute | fieldMarshal | declSecurity
  | classLayout | fieldLayout | standAloneSig | eventMap | eventPtr | event | propertyMap
  | propertyPtr | property | methodSemantics | methodImpl | moduleRef | typeSpec | implMap
  | fieldRva | encLog | encMap | assembly | assemblyProcessor | assemblyOs | assemblyRef
  | assemblyRefProcessor | assemblyRefOs | file | exportedType | manifestResource | nestedClass
  | genericParam | methodSpec | genericParamConstraint
deriving DecidableEq, Repr, Inhabited

namespace TableId

/-- The number of tables. -/
def count : Nat := 45

/-- The table's number. -/
def code (t : TableId) : Nat := t.ctorIdx

/-- Every table in the order of the numbers. -/
def all : Vector TableId 45 := #v[
  .module, .typeRef, .typeDef, .fieldPtr, .field, .methodPtr, .methodDef, .paramPtr, .param,
  .interfaceImpl, .memberRef, .constant, .customAttribute, .fieldMarshal, .declSecurity,
  .classLayout, .fieldLayout, .standAloneSig, .eventMap, .eventPtr, .event, .propertyMap,
  .propertyPtr, .property, .methodSemantics, .methodImpl, .moduleRef, .typeSpec, .implMap,
  .fieldRva, .encLog, .encMap, .assembly, .assemblyProcessor, .assemblyOs, .assemblyRef,
  .assemblyRefProcessor, .assemblyRefOs, .file, .exportedType, .manifestResource, .nestedClass,
  .genericParam, .methodSpec, .genericParamConstraint]

theorem code_lt (t : TableId) : t.code < 45 := by cases t <;> decide

/-- The table's number as a position. -/
def index (t : TableId) : Fin 45 := ⟨t.code, t.code_lt⟩

/-- The table at a position. -/
def ofIndex (i : Fin 45) : TableId := all[i]

/-- The table with a number. -/
def ofCode? (n : Nat) : Option TableId := if h : n < 45 then some (ofIndex ⟨n, h⟩) else none

/-- The name of the table. -/
def name : TableId → String
  | .module => "Module"
  | .typeRef => "TypeRef"
  | .typeDef => "TypeDef"
  | .fieldPtr => "FieldPtr"
  | .field => "Field"
  | .methodPtr => "MethodPtr"
  | .methodDef => "MethodDef"
  | .paramPtr => "ParamPtr"
  | .param => "Param"
  | .interfaceImpl => "InterfaceImpl"
  | .memberRef => "MemberRef"
  | .constant => "Constant"
  | .customAttribute => "CustomAttribute"
  | .fieldMarshal => "FieldMarshal"
  | .declSecurity => "DeclSecurity"
  | .classLayout => "ClassLayout"
  | .fieldLayout => "FieldLayout"
  | .standAloneSig => "StandAloneSig"
  | .eventMap => "EventMap"
  | .eventPtr => "EventPtr"
  | .event => "Event"
  | .propertyMap => "PropertyMap"
  | .propertyPtr => "PropertyPtr"
  | .property => "Property"
  | .methodSemantics => "MethodSemantics"
  | .methodImpl => "MethodImpl"
  | .moduleRef => "ModuleRef"
  | .typeSpec => "TypeSpec"
  | .implMap => "ImplMap"
  | .fieldRva => "FieldRVA"
  | .encLog => "EncLog"
  | .encMap => "EncMap"
  | .assembly => "Assembly"
  | .assemblyProcessor => "AssemblyProcessor"
  | .assemblyOs => "AssemblyOS"
  | .assemblyRef => "AssemblyRef"
  | .assemblyRefProcessor => "AssemblyRefProcessor"
  | .assemblyRefOs => "AssemblyRefOS"
  | .file => "File"
  | .exportedType => "ExportedType"
  | .manifestResource => "ManifestResource"
  | .nestedClass => "NestedClass"
  | .genericParam => "GenericParam"
  | .methodSpec => "MethodSpec"
  | .genericParamConstraint => "GenericParamConstraint"

/-- The table with a name. -/
def ofName? (s : Text) : Option TableId := all.toList.find? fun t => Text.ofString t.name = s

@[simp] theorem ofIndex_index (t : TableId) : ofIndex t.index = t := by cases t <;> rfl

@[simp] theorem index_ofIndex (i : Fin 45) : (ofIndex i).index = i := by revert i; decide

@[simp] theorem ofCode?_code (t : TableId) : ofCode? t.code = some t := by cases t <;> rfl

/-- A number names at most one table, and that table has the number. -/
theorem ofCode?_eq_some_iff {n : Nat} {t : TableId} : ofCode? n = some t ↔ t.code = n := by
  constructor
  · intro h
    unfold ofCode? at h
    split at h
    · next hn =>
      injection h with h
      subst h
      have := congrArg Fin.val (index_ofIndex ⟨n, hn⟩)
      simpa [index] using this
    · contradiction
  · rintro rfl
    exact ofCode?_code t

end TableId

/-- What a token shows for a table number, also for one that names no table. -/
def tableNumberText (n : Nat) : String :=
  match TableId.ofCode? n with
  | some t => t.name
  | none => if n = 0x70 then "UserString" else "Table(0x" ++ hexPad 2 n ++ ")"

/-! ## A value for each table -/

/-- One value for each table. -/
structure TableMap (α : Type) where
  /-- The values in the order of the table numbers. -/
  values : Vector α 45

namespace TableMap

variable {α : Type}

/-- The value of a table. -/
def get (m : TableMap α) (t : TableId) : α := m.values[t.index]

/-- The map with another value for one table. -/
def set (m : TableMap α) (t : TableId) (a : α) : TableMap α := ⟨m.values.set t.code a t.code_lt⟩

/-- The map that a function describes. -/
def ofFn (f : TableId → α) : TableMap α := ⟨Vector.ofFn fun i => f (TableId.ofIndex i)⟩

@[simp] theorem get_ofFn (f : TableId → α) (t : TableId) : (ofFn f).get t = f t := by
  simp [get, ofFn]

theorem get_set (m : TableMap α) (t u : TableId) (a : α) :
    (m.set t a).get u = if t = u then a else m.get u := by
  unfold get set
  by_cases h : t = u
  · subst h
    simp [TableId.index]
  · have hc : t.code ≠ u.code := by
      intro hc
      apply h
      have := congrArg TableId.ofCode? hc
      simpa using this
    simp [TableId.index, h, hc]

end TableMap

end ManagedImage
