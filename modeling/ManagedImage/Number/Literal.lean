/-
Whole numbers as people write them.

A number may have a sign and the mark of a base: `0x`, `0o` and `0b` in either
case, or a bare leading zero for octal. Underscores may stand between digits and
after a mark. Digits are taken one by one, so a number that has grown too large
is reported as such even if nonsense follows.
-/
import ManagedImage.Text

set_option autoImplicit false

namespace ManagedImage.Literal

/-- What is wrong with a number. -/
inductive NumberFault where
  /-- It is none. -/
  | malformed
  /-- It does not fit. -/
  | outOfRange
deriving DecidableEq, Repr

/-- How it is said. -/
def NumberFault.message : NumberFault → String
  | .malformed => "invalid syntax"
  | .outOfRange => "value out of range"

/-- The value of a digit or letter, letters going on after nine. -/
def digit? (b : UInt8) : Option Nat :=
  let n := b.toNat
  let small := n ||| 0x20
  if 0x30 ≤ n ∧ n ≤ 0x39 then some (n - 0x30)
  else if 0x61 ≤ small ∧ small ≤ 0x7A then some (small - 0x61 + 10)
  else none

/-- The byte of the underscore. -/
def underscore : UInt8 := 0x5F

/-- Takes digits of a base into a number below a limit. -/
def digits (base limit : Nat) (separated : Bool) : Nat → List UInt8 → Except NumberFault Nat
  | n, [] => .ok n
  | n, b :: rest =>
    if separated && b = underscore then digits base limit separated n rest
    else
      match digit? b with
      | none => .error .malformed
      | some d =>
        if base ≤ d then .error .malformed
        else if limit ≤ n * base + d then .error .outOfRange
        else digits base limit separated (n * base + d) rest

/-- A number below a limit without sign or mark, in a given base. -/
def natural (base limit : Nat) (bs : List UInt8) : Except NumberFault Nat :=
  if bs.isEmpty then .error .malformed else digits base limit false 0 bs

/-- The base that a letter after a zero marks. -/
def marked? (b : UInt8) : Option Nat :=
  match b.toNat ||| 0x20 with
  | 0x62 => some 2
  | 0x6F => some 8
  | 0x78 => some 16
  | _ => none

/-- The base of a number and its digits. A mark counts only if something follows it. -/
def split : List UInt8 → Nat × List UInt8
  | 0x30 :: mark :: d :: rest =>
    match marked? mark with
    | some base => (base, d :: rest)
    | none => (8, mark :: d :: rest)
  | 0x30 :: rest => (8, rest)
  | bs => (10, bs)

/-- Whether every underscore has a digit or a mark before it and a digit after it. -/
def separatorsFit (afterDigit : Bool) : List UInt8 → Bool
  | [] => true
  | b :: rest =>
    if b = underscore then
      afterDigit && (rest.head?.any fun d => (digit? d).isSome) && separatorsFit false rest
    else separatorsFit (digit? b).isSome rest

/-- A number without sign that may have a mark. -/
def unsigned (limit : Nat) (bs : List UInt8) : Except NumberFault Nat := do
  if bs.isEmpty then throw .malformed
  let (base, ds) := split bs
  let n ← digits base limit true 0 ds
  if separatorsFit false bs then return n else throw .malformed

/-- The number if it is below a limit. -/
def below (limit n : Nat) : Except NumberFault Int :=
  if n < limit then .ok n else .error .outOfRange

/-- How many numbers 64 bits hold. -/
def wordSpan : Nat := 0x10000000000000000

/-- How many of them are negative when one bit is a sign. -/
def halfSpan : Nat := 0x8000000000000000

/-- A number that fits 64 bits with sign. -/
def signed64 (bs : List UInt8) : Except NumberFault Int := do
  match bs with
  | 0x2D :: ds => return -(← below (halfSpan + 1) (← unsigned wordSpan ds))
  | 0x2B :: ds => below halfSpan (← unsigned wordSpan ds)
  | ds => below halfSpan (← unsigned wordSpan ds)

end ManagedImage.Literal
