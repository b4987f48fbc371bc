/-
Coded indexes: a row number and, in its low bits, a tag that selects one of a
few tables.

Each kind of coded index has its own list of tables, in tag order. A tag past
the list, or one that the format reserves, refers to nothing. How wide a cell
of the kind is depends on the row counts of all its tables.
-/
import ManagedImage.Number.Instances
import ManagedImage.Metadata.Token
import ManagedImage.Fault

set_option autoImplicit false

namespace ManagedImage

/-- A family of coded indexes. -/
inductive CodedKind where
  | typeDefOrRef | hasConstant | hasCustomAttribute | hasFieldMarshal | hasDeclSecurity
  | memberRefParent | hasSemantics | methodDefOrRef | memberForwarded | implementation
  | customAttributeType | resolutionScope | typeOrMethodDef
deriving DecidableEq, Repr, Inhabited

namespace CodedKind

/-- Every kind, in the order of the kinds' numbers. -/
def all : List CodedKind := [
  .typeDefOrRef, .hasConstant, .hasCustomAttribute, .hasFieldMarshal, .hasDeclSecurity,
  .memberRefParent, .hasSemantics, .methodDefOrRef, .memberForwarded, .implementation,
  .customAttributeType, .resolutionScope, .typeOrMethodDef]

/-- The kind's number. -/
def code (k : CodedKind) : Nat := k.ctorIdx

/-- The kind with a number. -/
def ofCode? (n : Nat) : Option CodedKind := all[n]?

/-- The name of the kind. -/
def name : CodedKind → String
  | .typeDefOrRef => "TypeDefOrRef"
  | .hasConstant => "HasConstant"
  | .hasCustomAttribute => "HasCustomAttribute"
  | .hasFieldMarshal => "HasFieldMarshal"
  | .hasDeclSecurity => "HasDeclSecurity"
  | .memberRefParent => "MemberRefParent"
  | .hasSemantics => "HasSemantics"
  | .methodDefOrRef => "MethodDefOrRef"
  | .memberForwarded => "MemberForwarded"
  | .implementation => "Implementation"
  | .customAttributeType => "CustomAttributeType"
  | .resolutionScope => "ResolutionScope"
  | .typeOrMethodDef => "TypeOrMethodDef"

/-- The name of a kind's number, also of one that names no kind. -/
def numberText (n : Nat) : String :=
  match ofCode? n with
  | some k => k.name
  | none => s!"CodedKind({n})"

/-- The number of tag bits. -/
def tagBits : CodedKind → Nat
  | .hasCustomAttribute => 5
  | .memberRefParent | .customAttributeType => 3
  | .typeDefOrRef | .hasConstant | .hasDeclSecurity | .implementation | .resolutionScope => 2
  | .hasFieldMarshal | .hasSemantics | .methodDefOrRef | .memberForwarded | .typeOrMethodDef => 1

/-- The number of tags. -/
def tagSpan (k : CodedKind) : Nat := 2 ^ k.tagBits

/-- The table of each tag; a reserved tag has none. -/
def slots : CodedKind → List (Option TableId)
  | .typeDefOrRef => [some .typeDef, some .typeRef, some .typeSpec]
  | .hasConstant => [some .field, some .param, some .property]
  | .hasCustomAttribute => [
      some .methodDef, some .field, some .typeRef, some .typeDef, some .param,
      some .interfaceImpl, some .memberRef, some .module, some .declSecurity, some .property,
      some .event, some .standAloneSig, some .moduleRef, some .typeSpec, some .assembly,
      some .assemblyRef, some .file, some .exportedType, some .manifestResource,
      some .genericParam, some .genericParamConstraint, some .methodSpec]
  | .hasFieldMarshal => [some .field, some .param]
  | .hasDeclSecurity => [some .typeDef, some .methodDef, some .assembly]
  | .memberRefParent =>
      [some .typeDef, some .typeRef, some .moduleRef, some .methodDef, some .typeSpec]
  | .hasSemantics => [some .event, some .property]
  | .methodDefOrRef => [some .methodDef, some .memberRef]
  | .memberForwarded => [some .field, some .methodDef]
  | .implementation => [some .file, some .assemblyRef, some .exportedType]
  | .customAttributeType => [none, none, some .methodDef, some .memberRef, none]
  | .resolutionScope => [some .module, some .moduleRef, some .assemblyRef, some .typeRef]
  | .typeOrMethodDef => [some .typeDef, some .methodDef]

/-- The member tables in tag order. -/
def tables (k : CodedKind) : List TableId := k.slots.filterMap id

/-- The table of a tag. -/
def tableOf? (k : CodedKind) (tag : Nat) : Option TableId := k.slots[tag]?.join

/-- The first tag with a slot: that of a table, or the first reserved one. -/
def slotTag? (k : CodedKind) (slot : Option TableId) : Option Nat := k.slots.findIdx? (· = slot)

/-- The tag of a table. -/
def tagOf? (k : CodedKind) (t : TableId) : Option Nat := k.slotTag? (some t)

/-- The token a coded index refers to. -/
def decode (k : CodedKind) (v : Nat) : Except Fault Token :=
  match k.tableOf? (v % k.tagSpan) with
  | some t => .ok (Token.make t (v / k.tagSpan))
  | none => .error (.format .table Fault.noOffset
      ("invalid " ++ k.name ++ s!" tag {v % k.tagSpan} in 0x" ++ hex v : String))

/-- The coded index of a token. -/
def encode (k : CodedKind) (tok : Token) : Except Fault Nat :=
  match tok.table?.bind k.tagOf? with
  | some tag => .ok (tok.row * k.tagSpan + tag)
  | none => .error (.invalidInput .table
      (k.name ++ " cannot reference " ++ tableNumberText tok.tableNumber : String))

/-- The width of a cell: two bytes as long as the rows of every member table fit beside the
tag in sixteen bits. -/
def width (k : CodedKind) (rows : TableId → Nat) : Nat :=
  if k.tables.any fun t => 2 ^ (16 - k.tagBits) ≤ rows t then 4 else 2

end CodedKind

end ManagedImage
