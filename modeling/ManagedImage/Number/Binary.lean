/-
Binary floating-point numbers as their bits.

A pattern has a sign, an exponent field and a fraction field. It stands for
plus or minus `m * 2 ^ q`, for an infinity or for no number. Widening to a
larger format keeps the value, which every larger format can hold.
-/
import ManagedImage.Number.Instances

set_option autoImplicit false

namespace ManagedImage

/-- The widths of the fields of a format. -/
structure BinaryFormat where
  /-- The number of fraction bits. -/
  fraction : Nat
  /-- The number of exponent bits. -/
  exponent : Nat
deriving DecidableEq, Repr

namespace BinaryFormat

/-- The format of four bytes. -/
def single : BinaryFormat := ⟨23, 8⟩

/-- The format of eight bytes. -/
def double : BinaryFormat := ⟨52, 11⟩

/-- What is added to the exponent of a number before it is stored. -/
def bias (f : BinaryFormat) : Nat := 2 ^ (f.exponent - 1) - 1

end BinaryFormat

/-- What a pattern stands for. -/
inductive BinaryValue where
  /-- No number. -/
  | nan
  /-- An infinity. -/
  | infinite (negative : Bool)
  /-- Plus or minus `m * 2 ^ q`. At a power of two the next smaller number is nearer than the next
  larger one, which `narrow` says. -/
  | finite (negative : Bool) (m : Nat) (q : Int) (narrow : Bool)
deriving DecidableEq, Repr

namespace BinaryFormat

/-- What a pattern stands for. -/
def value (f : BinaryFormat) (bits : Nat) : BinaryValue :=
  let frac := bits % 2 ^ f.fraction
  let exp := bits / 2 ^ f.fraction % 2 ^ f.exponent
  let negative := bits.testBit (f.fraction + f.exponent)
  if exp = 2 ^ f.exponent - 1 then
    if frac = 0 then .infinite negative else .nan
  else if exp = 0 then .finite negative frac (1 - f.bias - f.fraction) false
  else .finite negative (2 ^ f.fraction + frac) (exp - f.bias - f.fraction) (frac = 0 && 1 < exp)

/-- A pattern from its fields. -/
def ofFields (f : BinaryFormat) (negative : Bool) (exp frac : Nat) : Nat :=
  (if negative then 2 ^ (f.fraction + f.exponent) else 0) + exp * 2 ^ f.fraction + frac

/-- The pattern of a value that the format holds exactly and as a normal number. -/
def ofValue (f : BinaryFormat) : BinaryValue → Nat
  | .nan => f.ofFields false (2 ^ f.exponent - 1) (2 ^ (f.fraction - 1))
  | .infinite negative => f.ofFields negative (2 ^ f.exponent - 1) 0
  | .finite negative m q _ =>
    if m = 0 then f.ofFields negative 0 0
    else
      let shift := f.fraction - Nat.log2 m
      f.ofFields negative (q - shift + f.bias + f.fraction).toNat
        (m * 2 ^ shift - 2 ^ f.fraction)

end BinaryFormat

/-- The eight-byte pattern with the value of a four-byte one. -/
def widen (bits : Nat) : Nat := BinaryFormat.double.ofValue (BinaryFormat.single.value bits)

/-- Whether an eight-byte pattern is no number. -/
def isNan (bits : Nat) : Bool := BinaryFormat.double.value bits = .nan

end ManagedImage
