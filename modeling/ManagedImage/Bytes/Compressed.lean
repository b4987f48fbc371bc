/-
Compressed integers.

Lengths, counts and tokens inside blobs take one, two or four bytes, most
significant byte first; the top bits of the first byte say how many. A value of
seven bits is the byte itself, one of fourteen starts with `10`, one of
twenty-nine with `110`.

Three readers share this shape and differ at the edges. A signature refuses the
lead bytes from `111` on, except that `0xFF` is the mark of a null string. The
length in front of a heap entry has no such lead byte: whatever starts with
`11` is four bytes, and the lead keeps six bits. The scanners say how many bytes
they used also when they fail, since a sequential reader moves by that much. Two
writers share the shape as well, one for signatures and one for the lengths of
heap entries, which writes numbers that are too large all the same.

The signed form moves the sign to the lowest bit before compressing; the width
then says which bit that was.
-/
import ManagedImage.Fault
import ManagedImage.Number.Instances

set_option autoImplicit false

namespace ManagedImage.Compressed

/-- The largest number that has a compressed form. -/
def maxValue : Nat := 0x1FFFFFFF

/-- What a scan found: a value and the bytes used, or a fault and the bytes used before it. -/
inductive Scan where
  /-- A value and the number of its bytes. -/
  | value (v used : Nat)
  /-- A fault and the number of bytes read before it. -/
  | fault (f : ByteFault) (used : Nat)
deriving DecidableEq

/-- The two-byte form. -/
def two (a b : UInt8) : Nat := a.toNat % 64 * 256 + b.toNat

/-- The four-byte form, the lead byte keeping its low `keep` values. -/
def four (keep : Nat) (a b c d : UInt8) : Nat :=
  ((a.toNat % keep * 256 + b.toNat) * 256 + c.toNat) * 256 + d.toNat

/-- Reads a compressed integer from the front of the bytes. -/
def scan : List UInt8 → Scan
  | [] => .fault .unexpectedEnd 0
  | a :: rest =>
    if a < 0x80 then .value a.toNat 1
    else if a < 0xC0 then
      match rest with
      | b :: _ => .value (two a b) 2
      | _ => .fault .unexpectedEnd 1
    else if a < 0xE0 then
      match rest with
      | b :: c :: d :: _ => .value (four 32 a b c d) 4
      | _ => .fault .unexpectedEnd 1
    else .fault .badCompressed 0

/-- Reads the length in front of a heap entry. -/
def scanLength : List UInt8 → Scan
  | [] => .fault .unexpectedEnd 0
  | a :: rest =>
    if a < 0x80 then .value a.toNat 1
    else if a < 0xC0 then
      match rest with
      | b :: _ => .value (two a b) 2
      | _ => .fault .unexpectedEnd 1
    else
      match rest with
      | b :: c :: d :: _ => .value (four 64 a b c d) 4
      | _ => .fault .unexpectedEnd 1

/-- The fault of a compressed integer that is cut short. -/
def truncated : Fault := .bounds .signature Fault.noOffset "compressed integer truncated"

/-- The fault of a lead byte that starts nothing. -/
def badLead (a : UInt8) : Fault :=
  .format .signature Fault.noOffset
    ("invalid compressed integer lead byte 0x" ++ hexPad 2 a.toNat : String)

/-- Reads a compressed integer, or the null mark, with the number of bytes used. The lead byte is
told by its marks, and the bytes are put together by their bits. -/
def decode : List UInt8 → Except Fault (Option Nat × Nat)
  | [] => .error truncated
  | a :: rest =>
    if a = 0xFF then .ok (none, 1)
    else if a &&& 0x80 = 0 then .ok (some a.toNat, 1)
    else if a &&& 0xC0 = 0x80 then
      match rest with
      | b :: _ => .ok (some ((a &&& 0x3F).toNat <<< 8 ||| b.toNat), 2)
      | _ => .error truncated
    else if a &&& 0xE0 = 0xC0 then
      match rest with
      | b :: c :: d :: _ =>
        .ok (some ((a &&& 0x1F).toNat <<< 24 ||| b.toNat <<< 16 ||| c.toNat <<< 8 ||| d.toNat), 4)
      | _ => .error truncated
    else .error (badLead a)

/-- The bytes of a length, in the shortest form; a number too large keeps its low thirty bits. -/
def lengthBytes (n : Nat) : List UInt8 :=
  if n ≤ 0x7F then [UInt8.ofNat n]
  else if n ≤ 0x3FFF then [UInt8.ofNat (0x80 + n / 256), UInt8.ofNat n]
  else [UInt8.ofNat (n / 0x1000000 % 256) ||| 0xC0, UInt8.ofNat (n / 0x10000), UInt8.ofNat (n / 256),
    UInt8.ofNat n]

/-- The bytes of a compressed integer, in the shortest form. -/
def encode (n : Nat) : Except Fault (List UInt8) :=
  if n ≤ 0x7F then .ok [UInt8.ofNat n]
  else if n ≤ 0x3FFF then .ok [UInt8.ofNat (n >>> 8) ||| 0x80, UInt8.ofNat n]
  else if n ≤ maxValue then
    .ok [UInt8.ofNat (n >>> 24) ||| 0xC0, UInt8.ofNat (n >>> 16), UInt8.ofNat (n >>> 8),
      UInt8.ofNat n]
  else .error (.invalidInput .signature ("0x" ++ hex n ++ " is too large to compress" : String))

/-! ## Signed integers -/

/-- The number of value bits beside the sign, by the number of bytes. -/
def signedBits : Nat → Nat
  | 1 => 6
  | 2 => 13
  | _ => 28

/-- Reads a signed compressed integer with the number of bytes used. -/
def decodeSigned (bs : List UInt8) : Except Fault (Int × Nat) := do
  match ← decode bs with
  | (none, _) => .error (badLead 0xFF)
  | (some u, used) =>
    let half : Int := (u / 2 : Nat)
    return (if u % 2 = 1 then half - (2 ^ signedBits used : Nat) else half, used)

/-- Whether a number has `bits` value bits beside the sign. -/
def fitsSigned (bits : Nat) (v : Int) : Bool := -(2 ^ bits : Nat) ≤ v && v < (2 ^ bits : Nat)

/-- The number with its sign moved to the lowest bit, in `bits + 1` bits. -/
def rotateSign (bits : Nat) (v : Int) : Nat :=
  if v < 0 then ((v + (2 ^ bits : Nat)) * 2 + 1).toNat else (v * 2).toNat

/-- The bytes of a signed compressed integer. The width follows the range, not the value of
the rotated bits. -/
def encodeSigned (v : Int) : Except Fault (List UInt8) :=
  if fitsSigned 6 v then .ok [UInt8.ofNat (rotateSign 6 v)]
  else if fitsSigned 13 v then
    let u := rotateSign 13 v
    .ok [UInt8.ofNat (0x80 + u / 256), UInt8.ofNat u]
  else if fitsSigned 28 v then
    let u := rotateSign 28 v
    .ok [UInt8.ofNat (0xC0 + u / 0x1000000), UInt8.ofNat (u / 0x10000), UInt8.ofNat (u / 256),
      UInt8.ofNat u]
  else .error (.invalidInput .signature (decimal v ++ " is out of compressed range" : String))

end ManagedImage.Compressed
