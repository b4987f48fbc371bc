/-
The columns of a row under the names of its table.

Each table offers its columns one by one: a plain number in as many bits as its
type has, a row of another table as a token, a coded index decoded. An accessor
knows its column by number only, and asks the schema for nothing but the table
or the kind of coded index that the column refers to.
-/
import ManagedImage.Metadata.Table

set_option autoImplicit false

namespace ManagedImage

/-- What an accessor makes of a cell. -/
inductive Reading where
  /-- A number of so many bits. -/
  | number (bits : Nat)
  /-- The token of a row. -/
  | row
  /-- The token of a coded index. -/
  | coded
deriving DecidableEq, Repr

/-- A column offered under a name. -/
structure Accessor where
  /-- The name. -/
  name : String
  /-- The number of the column. -/
  column : Nat
  /-- What is made of its cell. -/
  reading : Reading
deriving DecidableEq, Repr

namespace TableId

/-- The accessors of a table. -/
def accessors : TableId → List Accessor
  | .module => [⟨"Generation", 0, .number 16⟩, ⟨"Name", 1, .number 32⟩, ⟨"Mvid", 2, .number 32⟩,
      ⟨"EncId", 3, .number 32⟩, ⟨"EncBaseId", 4, .number 32⟩]
  | .typeRef => [⟨"ResolutionScope", 0, .coded⟩, ⟨"TypeName", 1, .number 32⟩,
      ⟨"TypeNamespace", 2, .number 32⟩]
  | .typeDef => [⟨"Flags", 0, .number 32⟩, ⟨"TypeName", 1, .number 32⟩,
      ⟨"TypeNamespace", 2, .number 32⟩, ⟨"Extends", 3, .coded⟩, ⟨"FieldList", 4, .row⟩,
      ⟨"MethodList", 5, .row⟩]
  | .fieldPtr => [⟨"Field", 0, .row⟩]
  | .field => [⟨"Flags", 0, .number 16⟩, ⟨"Name", 1, .number 32⟩, ⟨"Signature", 2, .number 32⟩]
  | .methodPtr => [⟨"Method", 0, .row⟩]
  | .methodDef => [⟨"RVA", 0, .number 32⟩, ⟨"ImplFlags", 1, .number 16⟩, ⟨"Flags", 2, .number 16⟩,
      ⟨"Name", 3, .number 32⟩, ⟨"Signature", 4, .number 32⟩, ⟨"ParamList", 5, .row⟩]
  | .paramPtr => [⟨"Param", 0, .row⟩]
  | .param => [⟨"Flags", 0, .number 16⟩, ⟨"Sequence", 1, .number 16⟩, ⟨"Name", 2, .number 32⟩]
  | .interfaceImpl => [⟨"Class", 0, .row⟩, ⟨"Interface", 1, .coded⟩]
  | .memberRef => [⟨"Class", 0, .coded⟩, ⟨"Name", 1, .number 32⟩, ⟨"Signature", 2, .number 32⟩]
  | .constant => [⟨"Type", 0, .number 8⟩, ⟨"Padding", 1, .number 8⟩, ⟨"Parent", 2, .coded⟩,
      ⟨"Value", 3, .number 32⟩]
  | .customAttribute => [⟨"Parent", 0, .coded⟩, ⟨"Type", 1, .coded⟩, ⟨"Value", 2, .number 32⟩]
  | .fieldMarshal => [⟨"Parent", 0, .coded⟩, ⟨"NativeType", 1, .number 32⟩]
  | .declSecurity => [⟨"Action", 0, .number 16⟩, ⟨"Parent", 1, .coded⟩,
      ⟨"PermissionSet", 2, .number 32⟩]
  | .classLayout => [⟨"PackingSize", 0, .number 16⟩, ⟨"ClassSize", 1, .number 32⟩,
      ⟨"Parent", 2, .row⟩]
  | .fieldLayout => [⟨"Offset", 0, .number 32⟩, ⟨"Field", 1, .row⟩]
  | .standAloneSig => [⟨"Signature", 0, .number 32⟩]
  | .eventMap => [⟨"Parent", 0, .row⟩, ⟨"EventList", 1, .row⟩]
  | .eventPtr => [⟨"Event", 0, .row⟩]
  | .event => [⟨"EventFlags", 0, .number 16⟩, ⟨"Name", 1, .number 32⟩, ⟨"EventType", 2, .coded⟩]
  | .propertyMap => [⟨"Parent", 0, .row⟩, ⟨"PropertyList", 1, .row⟩]
  | .propertyPtr => [⟨"Property", 0, .row⟩]
  | .property => [⟨"Flags", 0, .number 16⟩, ⟨"Name", 1, .number 32⟩, ⟨"Type", 2, .number 32⟩]
  | .methodSemantics => [⟨"Semantics", 0, .number 16⟩, ⟨"Method", 1, .row⟩,
      ⟨"Association", 2, .coded⟩]
  | .methodImpl => [⟨"Class", 0, .row⟩, ⟨"MethodBody", 1, .coded⟩,
      ⟨"MethodDeclaration", 2, .coded⟩]
  | .moduleRef => [⟨"Name", 0, .number 32⟩]
  | .typeSpec => [⟨"Signature", 0, .number 32⟩]
  | .implMap => [⟨"MappingFlags", 0, .number 16⟩, ⟨"MemberForwarded", 1, .coded⟩,
      ⟨"ImportName", 2, .number 32⟩, ⟨"ImportScope", 3, .row⟩]
  | .fieldRva => [⟨"RVA", 0, .number 32⟩, ⟨"Field", 1, .row⟩]
  | .encLog => [⟨"RecordToken", 0, .number 32⟩, ⟨"FuncCode", 1, .number 32⟩]
  | .encMap => [⟨"RecordToken", 0, .number 32⟩]
  | .assembly => [⟨"HashAlgId", 0, .number 32⟩, ⟨"MajorVersion", 1, .number 16⟩,
      ⟨"MinorVersion", 2, .number 16⟩, ⟨"BuildNumber", 3, .number 16⟩,
      ⟨"RevisionNumber", 4, .number 16⟩, ⟨"Flags", 5, .number 32⟩, ⟨"PublicKey", 6, .number 32⟩,
      ⟨"Name", 7, .number 32⟩, ⟨"Culture", 8, .number 32⟩]
  | .assemblyProcessor => [⟨"Processor", 0, .number 32⟩]
  | .assemblyOs => [⟨"OSPlatformID", 0, .number 32⟩, ⟨"OSMajorVersion", 1, .number 32⟩,
      ⟨"OSMinorVersion", 2, .number 32⟩]
  | .assemblyRef => [⟨"MajorVersion", 0, .number 16⟩, ⟨"MinorVersion", 1, .number 16⟩,
      ⟨"BuildNumber", 2, .number 16⟩, ⟨"RevisionNumber", 3, .number 16⟩, ⟨"Flags", 4, .number 32⟩,
      ⟨"PublicKeyOrToken", 5, .number 32⟩, ⟨"Name", 6, .number 32⟩, ⟨"Culture", 7, .number 32⟩,
      ⟨"HashValue", 8, .number 32⟩]
  | .assemblyRefProcessor => [⟨"Processor", 0, .number 32⟩, ⟨"AssemblyRef", 1, .row⟩]
  | .assemblyRefOs => [⟨"OSPlatformID", 0, .number 32⟩, ⟨"OSMajorVersion", 1, .number 32⟩,
      ⟨"OSMinorVersion", 2, .number 32⟩, ⟨"AssemblyRef", 3, .row⟩]
  | .file => [⟨"Flags", 0, .number 32⟩, ⟨"Name", 1, .number 32⟩, ⟨"HashValue", 2, .number 32⟩]
  | .exportedType => [⟨"Flags", 0, .number 32⟩, ⟨"TypeDefId", 1, .number 32⟩,
      ⟨"TypeName", 2, .number 32⟩, ⟨"TypeNamespace", 3, .number 32⟩,
      ⟨"Implementation", 4, .coded⟩]
  | .manifestResource => [⟨"Offset", 0, .number 32⟩, ⟨"Flags", 1, .number 32⟩,
      ⟨"Name", 2, .number 32⟩, ⟨"Implementation", 3, .coded⟩]
  | .nestedClass => [⟨"NestedClass", 0, .row⟩, ⟨"EnclosingClass", 1, .row⟩]
  | .genericParam => [⟨"Number", 0, .number 16⟩, ⟨"Flags", 1, .number 16⟩, ⟨"Owner", 2, .coded⟩,
      ⟨"Name", 3, .number 32⟩]
  | .methodSpec => [⟨"Method", 0, .coded⟩, ⟨"Instantiation", 1, .number 32⟩]
  | .genericParamConstraint => [⟨"Owner", 0, .row⟩, ⟨"Constraint", 1, .coded⟩]

/-- The table that a column refers to; the first one for a column of another kind. -/
def target (t : TableId) (col : Nat) : TableId :=
  match t.columns[col]? with
  | some ⟨_, .table u⟩ => u
  | _ => .module

/-- The kind of the coded indexes of a column; the first one for a column of another kind. -/
def codedKind (t : TableId) (col : Nat) : CodedKind :=
  match t.columns[col]? with
  | some ⟨_, .coded k⟩ => k
  | _ => .typeDefOrRef

end TableId

namespace RowCursor

/-- What an accessor gives at the position of a cursor. -/
def read (c : RowCursor) (a : Accessor) : Except Fault CellView :=
  match a.reading with
  | .number bits => .ok (.number (c.value a.column % 2 ^ bits))
  | .row => .ok (.token (Token.make (c.table.id.target a.column) (c.value a.column)))
  | .coded => (c.coded (c.table.id.codedKind a.column) a.column).map .token

/-- Every accessor of the table by name, with what it gives. -/
def offered (c : RowCursor) : List (String × Except Fault CellView) :=
  c.table.id.accessors.map fun a => (a.name, c.read a)

end RowCursor

end ManagedImage
