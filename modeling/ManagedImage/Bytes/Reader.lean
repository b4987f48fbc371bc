/-
Sequential reading.

A reader is a region and a position in it. A fixed-width read that fails leaves
the position where it was; a compressed integer cut short leaves it after the
lead byte. Both the value and the position are part of the result, so that a
caller can go on after a failure.

A position is a signed number of 64 bits. Only aligning one that is close to the
largest can make it negative; the reader holds it as a word, so that a negative
position lies past the end of every region, like the large ones.
-/
import ManagedImage.Bytes.Region
import ManagedImage.Bytes.Compressed

set_option autoImplicit false

namespace ManagedImage

/-- A position in a region. It may lie past the end, where every read fails. -/
structure Reader where
  /-- What is read. -/
  region : Region
  /-- The offset of the next byte, as a word of 64 bits. -/
  offset : Nat

/-- A step of reading: it may fail, and moves the position either way. -/
abbrev Read (α : Type) := EStateM ByteFault Reader α

/-- A reader at the start of the region. -/
def Region.reader (g : Region) : Reader := ⟨g, 0⟩

namespace Reader

/-- A reader at the start of the bytes. -/
def ofBytes (data : ByteArray) : Reader := (Region.whole data).reader

/-- The offset of the next byte as a signed number. -/
def position (r : Reader) : Int := signedWord 64 r.offset

/-- The number of bytes that can still be read. -/
def remaining (r : Reader) : Nat := r.region.len - r.offset

/-- The distance from the position to the end in 64 bits, zero if it is negative. Unless the
position is negative, it is the number of bytes that can still be read. -/
def distance (r : Reader) : Nat :=
  (signedWord 64 ((r.region.len + (0x10000000000000000 - r.offset)) % 0x10000000000000000)).toNat

/-- The unread bytes. -/
def rest (r : Reader) : ByteArray :=
  r.region.data.extract (r.region.base + r.offset) (r.region.base + r.region.len)

/-- Up to `n` of the unread bytes, for readers that decide by looking ahead. -/
def ahead (r : Reader) (n : Nat) : List UInt8 :=
  (List.range (min n r.remaining)).map fun i => r.region.byte (r.offset + i)

/-- The reader moved forward. -/
def advance (r : Reader) (n : Nat) : Reader := { r with offset := r.offset + n }

/-- The reader at another position. -/
def seekTo (r : Reader) (offset : Nat) : Reader := { r with offset }

/-- Whether `n` bytes can be taken. -/
def has (r : Reader) (n : Int) : Bool := 0 ≤ n && n ≤ r.remaining

end Reader

namespace Read

/-- The current position. -/
def offset : Read Nat := do return (← get).offset

/-- Moves to a position, which may lie past the end. -/
def setOffset (offset : Int) : Read Unit := do
  if offset < 0 then throw .negativeOffset
  modify (·.seekTo offset.toNat)

/-- Passes over `n` bytes. -/
def skip (n : Int) : Read Unit := do
  if (← get).has n then modify (·.advance n.toNat) else throw .unexpectedEnd

/-- The word of 64 bits of the next multiple of `n`. A sum past the largest signed number wraps to
a negative one, which is rounded toward zero. -/
def alignedUp (n offset : Nat) : Nat :=
  let up := offset + (n - 1)
  if up < 0x8000000000000000 then up / n * n
  else ((signedWord 64 (up % 0x10000000000000000)).tdiv n * n % 0x10000000000000000).toNat

/-- Moves up to a multiple of `n`. -/
def align (n : Int) : Read Unit :=
  modify fun r => if 1 < n then { r with offset := alignedUp n.toNat r.offset } else r

/-- The next `n` bytes. -/
def bytes (n : Int) : Read ByteArray := do
  let r ← get
  if r.has n then
    set (r.advance n.toNat)
    return r.region.data.extract (r.region.base + r.offset) (r.region.base + r.offset + n.toNat)
  else throw .unexpectedEnd

/-- The next number of `width` bytes. -/
def word (width : Nat) : Read Nat := do
  let r ← get
  if r.has width then
    set (r.advance width)
    return wordAt r.region.data (r.region.base + r.offset) width
  else throw .unexpectedEnd

/-- The next byte. -/
def u8 : Read Nat := word 1
/-- The next 16-bit number. -/
def u16 : Read Nat := word 2
/-- The next 32-bit number. -/
def u32 : Read Nat := word 4
/-- The next 64-bit number. -/
def u64 : Read Nat := word 8

/-- The next number of `width` bytes in two's complement. -/
def signed (width : Nat) : Read Int := do return signedWord (8 * width) (← word width)

/-- The next byte, left unread. -/
def peek : Read Nat := do
  let r ← get
  if 0 < r.remaining then return (r.region.byte r.offset).toNat else throw .unexpectedEnd

/-- The bytes up to a zero byte, which is passed over. -/
def zeroTerminated : Read Text := do
  let r ← get
  match r.region.findZero? r.offset with
  | some stop =>
    set (r.seekTo (stop + 1))
    return r.region.text r.offset stop
  | none => throw .unexpectedEnd

/-- The bytes without the zeros at their end. -/
def trimZeros (bs : List UInt8) : List UInt8 := (bs.reverse.dropWhile (· = 0)).reverse

/-- A field of `n` bytes without its zero padding. -/
def fixedText (n : Int) : Read Text := do
  return Text.ofList (trimZeros (← bytes n).data.toList)

/-- A heap or table index of two or four bytes. -/
def index (width : Int) : Read Nat :=
  if width = 2 then u16 else if width = 4 then u32 else throw .invalidWidth

/-- The result of a scan of the bytes ahead, and the move that goes with it. -/
def scanned (scan : List UInt8 → Compressed.Scan) : Read Nat := do
  let r ← get
  match scan (r.ahead 4) with
  | .value v used => set (r.advance used); return v
  | .fault f used => set (r.advance used); throw f

/-- A compressed integer. -/
def compressed : Read Nat := scanned Compressed.scan

/-- The length in front of a heap entry. -/
def lengthField : Read Nat := scanned Compressed.scanLength

end Read

end ManagedImage
