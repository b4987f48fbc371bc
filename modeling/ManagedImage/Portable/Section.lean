/-
The section table: which addresses of the loaded program lie where in the file.

An address (RVA) belongs to the first section, in file order, whose virtual
range holds it. A section that declares no virtual size counts with its size in
the file.
-/
import ManagedImage.Bytes.Region

set_option autoImplicit false

namespace ManagedImage.Portable

/-- One entry of the section table. -/
structure Section where
  /-- The eight name bytes, padded with zeros. -/
  name : List UInt8
  /-- The size in memory. -/
  virtualSize : Nat
  /-- The address of the first byte. -/
  virtualAddress : Nat
  /-- The size in the file. -/
  rawSize : Nat
  /-- The file offset of the first byte. -/
  rawOffset : Nat
  /-- The file offset of the relocations. -/
  relocations : Nat
  /-- The file offset of the line numbers. -/
  lineNumbers : Nat
  /-- The number of relocations. -/
  relocationCount : Nat
  /-- The number of line numbers. -/
  lineNumberCount : Nat
  /-- The flags. -/
  characteristics : Nat

namespace Section

/-- The number of bytes of an entry. -/
def entrySize : Nat := 40

/-- The name up to its first zero byte. -/
def label (s : Section) : Text := Text.ofList (s.name.takeWhile (· ≠ 0))

/-- The number of addresses the section covers. -/
def extent (s : Section) : Nat := if s.virtualSize = 0 then s.rawSize else s.virtualSize

/-- Whether an address lies in the section. -/
def contains (s : Section) (rva : Nat) : Bool :=
  s.virtualAddress ≤ rva && rva - s.virtualAddress < s.extent

/-- The file offset of an address of the section. -/
def fileOffset (s : Section) (rva : Nat) : Nat := s.rawOffset + (rva - s.virtualAddress)

/-- The entry at a file offset. -/
def read (g : Region) (at_ : Nat) : Section where
  name := (List.range 8).map fun i => g.byte (at_ + i)
  virtualSize := g.wordD 4 (at_ + 8)
  virtualAddress := g.wordD 4 (at_ + 12)
  rawSize := g.wordD 4 (at_ + 16)
  rawOffset := g.wordD 4 (at_ + 20)
  relocations := g.wordD 4 (at_ + 24)
  lineNumbers := g.wordD 4 (at_ + 28)
  relocationCount := g.wordD 2 (at_ + 32)
  lineNumberCount := g.wordD 2 (at_ + 34)
  characteristics := g.wordD 4 (at_ + 36)

end Section

end ManagedImage.Portable
