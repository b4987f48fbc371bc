/-
Sixteen-bit code units.

String literals are stored as little-endian 16-bit units. Reading them back is
lenient: a surrogate without a partner becomes the replacement character. A
surrogate of either half that is followed by a trailing half takes that half
with it, so two trailing halves in a row are one replacement, not two.
-/
import ManagedImage.Text.Rune

set_option autoImplicit false

namespace ManagedImage.Units

/-- Whether the unit is one half of a surrogate pair. -/
def isSurrogate (u : Nat) : Bool := 0xD800 ≤ u && u < 0xE000

/-- Whether the unit is the second half of a pair. -/
def isTrail (u : Nat) : Bool := 0xDC00 ≤ u && u < 0xE000

/-- The code point of a pair, or the replacement if the first half is not a leading one. -/
def combine (lead trail : Nat) : Char :=
  if lead < 0xDC00 then Char.ofNat (0x10000 + (lead - 0xD800) * 0x400 + (trail - 0xDC00))
  else Rune.replacement

/-- The code points of a list of units. -/
def decode : List Nat → List Char
  | [] => []
  | [u] => [if isSurrogate u then Rune.replacement else Char.ofNat u]
  | u :: v :: rest =>
    if isSurrogate u then
      if isTrail v then combine u v :: decode rest
      else Rune.replacement :: decode (v :: rest)
    else Char.ofNat u :: decode (v :: rest)

/-- The units of a code point: itself, or a surrogate pair above the 16-bit range. -/
def encodeChar (c : Char) : List Nat :=
  if c.toNat < 0x10000 then [c.toNat]
  else [0xD800 + (c.toNat - 0x10000) / 0x400, 0xDC00 + (c.toNat - 0x10000) % 0x400]

/-- The units of a list of code points. -/
def encode (cs : List Char) : List Nat := cs.flatMap encodeChar

/-- Little-endian units of a byte list; a last odd byte is dropped. -/
def ofBytes : List UInt8 → List Nat
  | a :: b :: rest => (a.toNat + 256 * b.toNat) :: ofBytes rest
  | _ => []

/-- The little-endian bytes of the units. -/
def toBytes (us : List Nat) : List UInt8 :=
  us.flatMap fun u => [UInt8.ofNat (u % 256), UInt8.ofNat (u / 256)]

end ManagedImage.Units
