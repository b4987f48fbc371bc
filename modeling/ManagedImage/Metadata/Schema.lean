/-
What the columns of each table hold.

A column is a plain number, an index into a heap, a row of one table or a coded
index. How many bytes that takes depends on the image: wide heaps and large
tables widen the columns that point at them. `Widths` holds what decides this,
and `Layout` the resulting offsets of one table.
-/
import ManagedImage.Number.Instances
import ManagedImage.Metadata.CodedIndex

set_option autoImplicit false

namespace ManagedImage

/-- What a column holds. -/
inductive ColumnKind where
  /-- A byte. -/
  | u8
  /-- A 16-bit number. -/
  | u16
  /-- A 32-bit number. -/
  | u32
  /-- An offset into the string heap. -/
  | string
  /-- A one-based index into the GUID heap. -/
  | guid
  /-- An offset into the blob heap. -/
  | blob
  /-- A row of a table. -/
  | table (t : TableId)
  /-- A coded index. -/
  | coded (k : CodedKind)
deriving DecidableEq, Repr

/-- A column of a table. -/
structure Column where
  /-- The name. -/
  name : String
  /-- What it holds. -/
  kind : ColumnKind
deriving DecidableEq, Repr

/-- The columns of a table in order. -/
def TableId.columns : TableId → List Column
  | .module => [⟨"Generation", .u16⟩, ⟨"Name", .string⟩, ⟨"Mvid", .guid⟩, ⟨"EncId", .guid⟩,
      ⟨"EncBaseId", .guid⟩]
  | .typeRef => [⟨"ResolutionScope", .coded .resolutionScope⟩, ⟨"TypeName", .string⟩,
      ⟨"TypeNamespace", .string⟩]
  | .typeDef => [⟨"Flags", .u32⟩, ⟨"TypeName", .string⟩, ⟨"TypeNamespace", .string⟩,
      ⟨"Extends", .coded .typeDefOrRef⟩, ⟨"FieldList", .table .field⟩,
      ⟨"MethodList", .table .methodDef⟩]
  | .fieldPtr => [⟨"Field", .table .field⟩]
  | .field => [⟨"Flags", .u16⟩, ⟨"Name", .string⟩, ⟨"Signature", .blob⟩]
  | .methodPtr => [⟨"Method", .table .methodDef⟩]
  | .methodDef => [⟨"RVA", .u32⟩, ⟨"ImplFlags", .u16⟩, ⟨"Flags", .u16⟩, ⟨"Name", .string⟩,
      ⟨"Signature", .blob⟩, ⟨"ParamList", .table .param⟩]
  | .paramPtr => [⟨"Param", .table .param⟩]
  | .param => [⟨"Flags", .u16⟩, ⟨"Sequence", .u16⟩, ⟨"Name", .string⟩]
  | .interfaceImpl => [⟨"Class", .table .typeDef⟩, ⟨"Interface", .coded .typeDefOrRef⟩]
  | .memberRef => [⟨"Class", .coded .memberRefParent⟩, ⟨"Name", .string⟩, ⟨"Signature", .blob⟩]
  | .constant => [⟨"Type", .u8⟩, ⟨"Padding", .u8⟩, ⟨"Parent", .coded .hasConstant⟩,
      ⟨"Value", .blob⟩]
  | .customAttribute => [⟨"Parent", .coded .hasCustomAttribute⟩,
      ⟨"Type", .coded .customAttributeType⟩, ⟨"Value", .blob⟩]
  | .fieldMarshal => [⟨"Parent", .coded .hasFieldMarshal⟩, ⟨"NativeType", .blob⟩]
  | .declSecurity => [⟨"Action", .u16⟩, ⟨"Parent", .coded .hasDeclSecurity⟩,
      ⟨"PermissionSet", .blob⟩]
  | .classLayout => [⟨"PackingSize", .u16⟩, ⟨"ClassSize", .u32⟩, ⟨"Parent", .table .typeDef⟩]
  | .fieldLayout => [⟨"Offset", .u32⟩, ⟨"Field", .table .field⟩]
  | .standAloneSig => [⟨"Signature", .blob⟩]
  | .eventMap => [⟨"Parent", .table .typeDef⟩, ⟨"EventList", .table .event⟩]
  | .eventPtr => [⟨"Event", .table .event⟩]
  | .event => [⟨"EventFlags", .u16⟩, ⟨"Name", .string⟩, ⟨"EventType", .coded .typeDefOrRef⟩]
  | .propertyMap => [⟨"Parent", .table .typeDef⟩, ⟨"PropertyList", .table .property⟩]
  | .propertyPtr => [⟨"Property", .table .property⟩]
  | .property => [⟨"Flags", .u16⟩, ⟨"Name", .string⟩, ⟨"Type", .blob⟩]
  | .methodSemantics => [⟨"Semantics", .u16⟩, ⟨"Method", .table .methodDef⟩,
      ⟨"Association", .coded .hasSemantics⟩]
  | .methodImpl => [⟨"Class", .table .typeDef⟩, ⟨"MethodBody", .coded .methodDefOrRef⟩,
      ⟨"MethodDeclaration", .coded .methodDefOrRef⟩]
  | .moduleRef => [⟨"Name", .string⟩]
  | .typeSpec => [⟨"Signature", .blob⟩]
  | .implMap => [⟨"MappingFlags", .u16⟩, ⟨"MemberForwarded", .coded .memberForwarded⟩,
      ⟨"ImportName", .string⟩, ⟨"ImportScope", .table .moduleRef⟩]
  | .fieldRva => [⟨"RVA", .u32⟩, ⟨"Field", .table .field⟩]
  | .encLog => [⟨"Token", .u32⟩, ⟨"FuncCode", .u32⟩]
  | .encMap => [⟨"Token", .u32⟩]
  | .assembly => [⟨"HashAlgId", .u32⟩, ⟨"MajorVersion", .u16⟩, ⟨"MinorVersion", .u16⟩,
      ⟨"BuildNumber", .u16⟩, ⟨"RevisionNumber", .u16⟩, ⟨"Flags", .u32⟩, ⟨"PublicKey", .blob⟩,
      ⟨"Name", .string⟩, ⟨"Culture", .string⟩]
  | .assemblyProcessor => [⟨"Processor", .u32⟩]
  | .assemblyOs => [⟨"OSPlatformID", .u32⟩, ⟨"OSMajorVersion", .u32⟩, ⟨"OSMinorVersion", .u32⟩]
  | .assemblyRef => [⟨"MajorVersion", .u16⟩, ⟨"MinorVersion", .u16⟩, ⟨"BuildNumber", .u16⟩,
      ⟨"RevisionNumber", .u16⟩, ⟨"Flags", .u32⟩, ⟨"PublicKeyOrToken", .blob⟩, ⟨"Name", .string⟩,
      ⟨"Culture", .string⟩, ⟨"HashValue", .blob⟩]
  | .assemblyRefProcessor => [⟨"Processor", .u32⟩, ⟨"AssemblyRef", .table .assemblyRef⟩]
  | .assemblyRefOs => [⟨"OSPlatformID", .u32⟩, ⟨"OSMajorVersion", .u32⟩,
      ⟨"OSMinorVersion", .u32⟩, ⟨"AssemblyRef", .table .assemblyRef⟩]
  | .file => [⟨"Flags", .u32⟩, ⟨"Name", .string⟩, ⟨"HashValue", .blob⟩]
  | .exportedType => [⟨"Flags", .u32⟩, ⟨"TypeDefId", .u32⟩, ⟨"TypeName", .string⟩,
      ⟨"TypeNamespace", .string⟩, ⟨"Implementation", .coded .implementation⟩]
  | .manifestResource => [⟨"Offset", .u32⟩, ⟨"Flags", .u32⟩, ⟨"Name", .string⟩,
      ⟨"Implementation", .coded .implementation⟩]
  | .nestedClass => [⟨"NestedClass", .table .typeDef⟩, ⟨"EnclosingClass", .table .typeDef⟩]
  | .genericParam => [⟨"Number", .u16⟩, ⟨"Flags", .u16⟩, ⟨"Owner", .coded .typeOrMethodDef⟩,
      ⟨"Name", .string⟩]
  | .methodSpec => [⟨"Method", .coded .methodDefOrRef⟩, ⟨"Instantiation", .blob⟩]
  | .genericParamConstraint => [⟨"Owner", .table .genericParam⟩,
      ⟨"Constraint", .coded .typeDefOrRef⟩]

/-! ## Widths -/

/-- What decides the width of every column. -/
structure Widths where
  /-- The width of a string index. -/
  strings : Nat
  /-- The width of a GUID index. -/
  guid : Nat
  /-- The width of a blob index. -/
  blob : Nat
  /-- The row count of each table. -/
  rows : TableMap Nat

namespace Widths

/-- The width of a row number: two bytes up to 65535 rows. -/
def table (w : Widths) (t : TableId) : Nat := if 0xFFFF < w.rows.get t then 4 else 2

/-- The width of a coded index. -/
def coded (w : Widths) (k : CodedKind) : Nat := k.width w.rows.get

/-- The width of a column. -/
def column (w : Widths) : ColumnKind → Nat
  | .u8 => 1
  | .u16 => 2
  | .u32 => 4
  | .string => w.strings
  | .guid => w.guid
  | .blob => w.blob
  | .table t => w.table t
  | .coded k => w.coded k

/-- The widths of a table's columns in order. -/
def sizes (w : Widths) (t : TableId) : List Nat := t.columns.map fun c => w.column c.kind

end Widths

/-- Where the columns of a table lie in its rows. -/
structure Layout where
  /-- Offset and width of each column. -/
  columns : Array (Nat × Nat)
  /-- The width of a row. -/
  rowSize : Nat

namespace Layout

/-- Each width with the sum of those before it. -/
def offsets : Nat → List Nat → List (Nat × Nat)
  | _, [] => []
  | at_, size :: rest => (at_, size) :: offsets (at_ + size) rest

/-- The layout of columns of the given widths, one after the other. -/
def ofSizes (sizes : List Nat) : Layout := ⟨(offsets 0 sizes).toArray, sizes.sum⟩

end Layout

/-- The layout of a table. -/
def Widths.layout (w : Widths) (t : TableId) : Layout := .ofSizes (w.sizes t)

end ManagedImage
