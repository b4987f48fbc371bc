/-
Little-endian words.

Every number of the file format is a fixed number of bytes, least significant
first. One reader and one writer, both over the width, serve all of them; the
signed reading of a word is a function of its value.
-/
import ManagedImage.Number.Instances

set_option autoImplicit false

namespace ManagedImage

/-- The number whose little-endian bytes these are. -/
def leNat : List UInt8 → Nat
  | [] => 0
  | b :: rest => b.toNat + 256 * leNat rest

/-- The `width` little-endian bytes of a number, higher ones dropped. -/
def leBytes : Nat → Nat → List UInt8
  | 0, _ => []
  | width + 1, n => UInt8.ofNat (n % 256) :: leBytes width (n / 256)

/-- The byte at a position, or zero past the end. -/
def byteAt (data : ByteArray) (i : Nat) : UInt8 :=
  if h : i < data.size then data[i] else 0

/-- The number of `width` bytes that starts at a position. -/
def wordAt (data : ByteArray) : Nat → Nat → Nat
  | _, 0 => 0
  | i, width + 1 => (byteAt data i).toNat + 256 * wordAt data (i + 1) width

/-- A word of `bits` bits read as a number in two's complement. -/
def signedWord (bits n : Nat) : Int :=
  if n < 2 ^ (bits - 1) then n else n - (2 ^ bits : Nat)

/-- A list of zero bytes. -/
def zeroBytes (n : Nat) : List UInt8 := List.replicate n 0

/-- The bytes followed by zeros up to a multiple of `n`. -/
def padTo (n : Nat) (bs : List UInt8) : List UInt8 :=
  bs ++ zeroBytes ((n - bs.length % n) % n)

/-- The number rounded up to a multiple of four. -/
def roundUp4 (n : Nat) : Nat := (n + 3) / 4 * 4

/-! ## Widths and values -/

@[simp] theorem length_leBytes (width n : Nat) : (leBytes width n).length = width := by
  induction width generalizing n with
  | zero => rfl
  | succ w ih => simp [leBytes, ih]

/-- Reading back a written word gives the number modulo the width. -/
theorem leNat_leBytes (width n : Nat) : leNat (leBytes width n) = n % 256 ^ width := by
  induction width generalizing n with
  | zero => exact (Nat.mod_one n).symm
  | succ w ih =>
    have low : (UInt8.ofNat (n % 256)).toNat = n % 256 := by
      rw [UInt8.toNat_ofNat']
      exact Nat.mod_eq_of_lt (Nat.mod_lt n (by decide))
    rw [leBytes, leNat, ih, low, Nat.pow_succ, Nat.mul_comm (256 ^ w) 256, Nat.mod_mul]

/-- A word is below the number of its bit patterns. -/
theorem wordAt_lt (data : ByteArray) (i width : Nat) : wordAt data i width < 256 ^ width := by
  induction width generalizing i with
  | zero => simp [wordAt]
  | succ w ih =>
    have h := ih (i + 1)
    have hb : (byteAt data i).toNat < 256 := UInt8.toNat_lt _
    simp only [wordAt, Nat.pow_succ]
    omega

end ManagedImage
