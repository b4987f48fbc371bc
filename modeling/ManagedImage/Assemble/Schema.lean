/-
The rows of the tables as the assembler lays them out.

As it has table numbers and tag orders of its own, the assembler has a list of
its own of what the cells of a row are, apart from the columns of the reader.
Tables are named by their numbers here.
-/
import ManagedImage.Metadata.CodedIndex

set_option autoImplicit false

namespace ManagedImage.Assemble

/-- What a cell of a row is. -/
inductive CellKind where
  /-- A number of so many bytes. -/
  | fixed (bytes : Nat)
  /-- An offset into the string heap. -/
  | string
  /-- A one-based index into the GUID heap. -/
  | guid
  /-- An offset into the blob heap. -/
  | blob
  /-- A row of the table with a number. -/
  | table (number : Nat)
  /-- A coded index. -/
  | coded (family : CodedKind)
deriving DecidableEq, Repr

/-- The cells of a row of each table, in the order of the tables' numbers. -/
def schemas : TableMap (List CellKind) := ⟨#v[
    [.fixed 2, .string, .guid, .guid, .guid],
    [.coded .resolutionScope, .string, .string],
    [.fixed 4, .string, .string, .coded .typeDefOrRef, .table 0x04, .table 0x06],
    [.table 0x04],
    [.fixed 2, .string, .blob],
    [.table 0x06],
    [.fixed 4, .fixed 2, .fixed 2, .string, .blob, .table 0x08],
    [.table 0x08],
    [.fixed 2, .fixed 2, .string],
    [.table 0x02, .coded .typeDefOrRef],
    [.coded .memberRefParent, .string, .blob],
    [.fixed 1, .fixed 1, .coded .hasConstant, .blob],
    [.coded .hasCustomAttribute, .coded .customAttributeType, .blob],
    [.coded .hasFieldMarshal, .blob],
    [.fixed 2, .coded .hasDeclSecurity, .blob],
    [.fixed 2, .fixed 4, .table 0x02],
    -- The tables from 0x10 on.
    [.fixed 4, .table 0x04],
    [.blob],
    [.table 0x02, .table 0x14],
    [.table 0x14],
    [.fixed 2, .string, .coded .typeDefOrRef],
    [.table 0x02, .table 0x17],
    [.table 0x17],
    [.fixed 2, .string, .blob],
    [.fixed 2, .table 0x06, .coded .hasSemantics],
    [.table 0x02, .coded .methodDefOrRef, .coded .methodDefOrRef],
    [.string],
    [.blob],
    [.fixed 2, .coded .memberForwarded, .string, .table 0x1A],
    [.fixed 4, .table 0x04],
    [.fixed 4, .fixed 4],
    [.fixed 4],
    -- The tables from 0x20 on.
    [.fixed 4, .fixed 2, .fixed 2, .fixed 2, .fixed 2, .fixed 4, .blob, .string, .string],
    [.fixed 4],
    [.fixed 4, .fixed 4, .fixed 4],
    [.fixed 2, .fixed 2, .fixed 2, .fixed 2, .fixed 4, .blob, .string, .string, .blob],
    [.fixed 4, .table 0x23],
    [.fixed 4, .fixed 4, .fixed 4, .table 0x23],
    [.fixed 4, .string, .blob],
    [.fixed 4, .fixed 4, .string, .string, .coded .implementation],
    [.fixed 4, .fixed 4, .string, .coded .implementation],
    [.table 0x02, .table 0x02],
    [.fixed 2, .fixed 2, .coded .typeOrMethodDef, .string],
    [.coded .methodDefOrRef, .blob],
    [.table 0x2A, .coded .typeDefOrRef]]⟩

/-- The cells of a row of a table. -/
def cellKinds (t : TableId) : List CellKind := schemas.get t

end ManagedImage.Assemble
