/-
Coded indexes as the assembler packs them.

The assembler has table numbers and tag orders of its own, apart from those of
the reader, so that an image it has written is a test of the reader. A table is
looked for by its number, and the first tag that has it is taken; a tag that
stands for no table has the number -1.
-/
import ManagedImage.Metadata.CodedIndex

set_option autoImplicit false

namespace ManagedImage

namespace Assemble

/-- How a family of coded indexes is packed. -/
structure TagLayout where
  /-- The number of bits of a tag. -/
  bits : Nat
  /-- The number of the table of each tag. -/
  numbers : List Int

/-- The number of a tag without a table. -/
def noTable : Int := -1

/-- The layout of a family. -/
def tagLayout : CodedKind → TagLayout
  | .typeDefOrRef => ⟨2, [0x02, 0x01, 0x1B]⟩
  | .hasConstant => ⟨2, [0x04, 0x08, 0x17]⟩
  | .hasCustomAttribute => ⟨5, [
      0x06, 0x04, 0x01, 0x02, 0x08, 0x09, 0x0A, 0x00, 0x0E, 0x17, 0x14, 0x11, 0x1A, 0x1B, 0x20,
      0x23, 0x26, 0x27, 0x28, 0x2A, 0x2C, 0x2B]⟩
  | .hasFieldMarshal => ⟨1, [0x04, 0x08]⟩
  | .hasDeclSecurity => ⟨2, [0x02, 0x06, 0x20]⟩
  | .memberRefParent => ⟨3, [0x02, 0x01, 0x1A, 0x06, 0x1B]⟩
  | .hasSemantics => ⟨1, [0x14, 0x17]⟩
  | .methodDefOrRef => ⟨1, [0x06, 0x0A]⟩
  | .memberForwarded => ⟨1, [0x04, 0x06]⟩
  | .implementation => ⟨2, [0x26, 0x23, 0x27]⟩
  | .customAttributeType => ⟨3, [noTable, noTable, 0x06, 0x0A, noTable]⟩
  | .resolutionScope => ⟨2, [0x00, 0x1A, 0x23, 0x01]⟩
  | .typeOrMethodDef => ⟨1, [0x02, 0x06]⟩

/-- The row and the tag of a table number as one number, in 32 bits. -/
def coded? (k : CodedKind) (number : Int) (row : Nat) : Option Nat :=
  let l := tagLayout k
  (l.numbers.findIdx? (· = number)).map fun tag => row * 2 ^ l.bits % 0x100000000 + tag

/-- The number of a table, or of none. -/
def slotNumber : Option TableId → Int
  | some t => t.code
  | none => noTable

end Assemble

/-- The coded index of a row of a table; without a table, that of the first tag that has none. -/
def CodedKind.pack? (k : CodedKind) (slot : Option TableId) (row : Nat) : Option Nat :=
  Assemble.coded? k (Assemble.slotNumber slot) row

end ManagedImage
