/-
A window into the bytes of a file.

A region remembers where in the file it starts, so that a fault can name a file
offset, and it carries the proof that it lies inside the file; so no read
through it can leave the file. Taking a region of a region copies nothing.

Positions and lengths are integers, because they are computed from unchecked
header fields: a negative one is refused by name, one past the end by another.
-/
import ManagedImage.Bytes.Word
import ManagedImage.Fault

set_option autoImplicit false

namespace ManagedImage

/-- The bytes `base` to `base + len` of a file. -/
structure Region where
  /-- The whole file. -/
  data : ByteArray
  /-- The file offset of the first byte. -/
  base : Nat
  /-- The number of bytes. -/
  len : Nat
  /-- The window lies inside the file. -/
  bounded : base + len ≤ data.size

namespace Region

/-- The region that covers all of a file. -/
def whole (data : ByteArray) : Region := ⟨data, 0, data.size, by omega⟩

/-- A region without bytes, for a stream that a file does not have. -/
def empty : Region := ⟨ByteArray.empty, 0, 0, Nat.le_refl 0⟩

instance : Inhabited Region := ⟨empty⟩

/-- A copy of the bytes. -/
def bytes (g : Region) : ByteArray := g.data.extract g.base (g.base + g.len)

/-- The bytes as a list. -/
def toList (g : Region) : List UInt8 := g.bytes.data.toList

/-- The byte at an offset, or zero outside the region. -/
def byte (g : Region) (i : Nat) : UInt8 := if i < g.len then byteAt g.data (g.base + i) else 0

/-- Whether `width` bytes at `offset` lie inside. -/
def check (g : Region) (offset : Int) (width : Nat) : Except ByteFault Unit :=
  if offset < 0 then .error .negativeOffset
  else if offset.toNat + width ≤ g.len then .ok ()
  else .error .unexpectedEnd

/-- The window of `length` bytes at `offset`. -/
def sub (g : Region) (offset length : Int) : Except ByteFault Region :=
  if offset < 0 ∨ length < 0 then .error .negativeOffset
  else if h : offset.toNat + length.toNat ≤ g.len then
    .ok ⟨g.data, g.base + offset.toNat, length.toNat, by have := g.bounded; omega⟩
  else .error .unexpectedEnd

/-- The window from `offset` to the end. -/
def startingAt (g : Region) (offset : Int) : Except ByteFault Region :=
  if offset < 0 then .error .negativeOffset
  else g.sub offset (g.len - offset.toNat : Nat)

/-- The little-endian number of `width` bytes at `offset`. -/
def word (g : Region) (width : Nat) (offset : Int) : Except ByteFault Nat := do
  g.check offset width
  return wordAt g.data (g.base + offset.toNat) width

/-- The byte at `offset`. -/
def u8 (g : Region) (offset : Int) : Except ByteFault Nat := g.word 1 offset

/-- The 16-bit number at `offset`. -/
def u16 (g : Region) (offset : Int) : Except ByteFault Nat := g.word 2 offset

/-- The 32-bit number at `offset`. -/
def u32 (g : Region) (offset : Int) : Except ByteFault Nat := g.word 4 offset

/-- The 64-bit number at `offset`. -/
def u64 (g : Region) (offset : Int) : Except ByteFault Nat := g.word 8 offset

/-- A table cell of 1, 2 or 4 bytes at `offset`. -/
def index (g : Region) (offset width : Int) : Except ByteFault Nat :=
  if width = 1 then g.u8 offset
  else if width = 2 then g.u16 offset
  else if width = 4 then g.u32 offset
  else .error .invalidWidth

/-- A copy of `length` bytes at `offset`. -/
def slice (g : Region) (offset length : Int) : Except ByteFault ByteArray := do
  g.check offset length.toNat
  return g.data.extract (g.base + offset.toNat) (g.base + offset.toNat + length.toNat)

/-- A word whose place is known to lie inside; zero where it does not. -/
def wordD (g : Region) (width offset : Nat) : Nat :=
  if offset + width ≤ g.len then wordAt g.data (g.base + offset) width else 0

/-- The offset of the first zero byte at or after `i`. -/
def findZero? (g : Region) (i : Nat) : Option Nat :=
  if i < g.len then
    if g.byte i = 0 then some i else g.findZero? (i + 1)
  else none
termination_by g.len - i

/-- The text from `start` up to `stop`. -/
def text (g : Region) (start stop : Nat) : Text :=
  ⟨g.data.extract (g.base + start) (g.base + min stop g.len)⟩

end Region

end ManagedImage
