/-
The scalar values of a TOML file: texts, truth values, whole numbers, fractions
and moments.

A number or a moment is first cut out of the text by the characters it is made
of and then checked against its rules: underscores stand between digits, a
decimal number has no leading zero, a point has digits on both sides, and a
whole number fits 64 bits. A moment is a date, a time of day, or both with an
optional offset; seconds may be left out.
-/
import ManagedImage.Number.Instances

set_option autoImplicit false

namespace ManagedImage.Settings.Toml

/-- Reads something off the front of the characters. -/
abbrev Step (α : Type) := List Char → Option (α × List Char)

/-- A value that holds no other. -/
inductive Scalar where
  /-- A text. -/
  | text (s : String)
  /-- A truth value. -/
  | bool (b : Bool)
  /-- A whole number. -/
  | integer (n : Int)
  /-- A fraction, as it was written. -/
  | fraction (spelling : String)
  /-- A date, a time or both, as it was written. -/
  | moment (spelling : String)
deriving DecidableEq, Repr

/-! ## Digits -/

/-- The value of a hexadecimal digit. -/
def hexDigit? (c : Char) : Option Nat :=
  if c.isDigit then some (c.toNat - '0'.toNat)
  else if 'a' ≤ c ∧ c ≤ 'f' then some (c.toNat - 'a'.toNat + 10)
  else if 'A' ≤ c ∧ c ≤ 'F' then some (c.toNat - 'A'.toNat + 10)
  else none

/-- Whether a character is a hexadecimal digit. -/
def isHexDigit (c : Char) : Bool := (hexDigit? c).isSome

/-- The number that digits spell in a base; other characters count for nothing. -/
def digitsValue (base : Nat) (ds : List Char) : Nat :=
  ds.foldl (fun n c => match hexDigit? c with
    | some d => n * base + d
    | none => n) 0

/-- Whether every underscore follows a digit and the last character is one. -/
def underscoresFit (cs : List Char) : Bool :=
  let (fits, afterDigit) := cs.foldl
    (fun (fits, afterDigit) c => (fits && (c ≠ '_' || afterDigit), isHexDigit c)) (true, false)
  fits && afterDigit

/-- Whether a character is a sign. -/
def isSign (c : Char) : Bool := c = '+' || c = '-'

/-- Whether a decimal number starts with a zero that does not stand alone. -/
def hasLeadingZero : List Char → Bool
  | '0' :: c :: _ => !(c = 'b' || c = 'o' || c = 'x')
  | s :: '0' :: _ :: _ => isSign s
  | _ => false

/-! ## Whole numbers -/

/-- The base of a whole number and what follows the mark of the base. -/
def baseOf : List Char → Nat × List Char
  | '0' :: 'b' :: ds => (2, ds)
  | '0' :: 'o' :: ds => (8, ds)
  | '0' :: 'x' :: ds => (16, ds)
  | ds => (10, ds)

/-- Whether a number fits 64 bits with sign. -/
def fits64 (n : Int) : Bool := -0x8000000000000000 ≤ n && n < 0x8000000000000000

/-- The whole number that a run of characters spells. -/
def integer? (cs : List Char) : Option Int :=
  let (base, ds) := baseOf cs
  let size : Int := digitsValue base ds
  let n := if cs.head? = some '-' then -size else size
  if underscoresFit cs && !hasLeadingZero cs && fits64 n then some n else none

/-! ## Fractions -/

/-- Whether a character divides the parts of a fraction. -/
def dividesFraction (c : Char) : Bool := c = '.' || c = 'e' || c = 'E'

/-- The parts of a fraction between point and exponent marks, empty ones left out. -/
def fractionParts : List Char → List (List Char)
  | [] => []
  | c :: cs =>
    if dividesFraction c then fractionParts cs
    else
      match cs with
      | [] => [[c]]
      | d :: _ =>
        if dividesFraction d then [c] :: fractionParts cs
        else
          match fractionParts cs with
          | part :: parts => (c :: part) :: parts
          | [] => [[c]]

/-- Whether a digit follows every point. -/
def pointsFit : List Char → Bool
  | [] => true
  | '.' :: c :: cs => c.isDigit && pointsFit (c :: cs)
  | ['.'] => false
  | _ :: cs => pointsFit cs

/-- The least number that is rounded up past the largest double: half a unit in the last place
above it. -/
def fractionLimit : Nat := 2 ^ (1024 : Nat) - 2 ^ (970 : Nat)

/-- Whether `m · 10^e` is within the range of a double. Far from the limit the number of digits
decides. -/
def withinRange (m : Nat) (e : Int) : Bool :=
  let digits : Int := (Nat.toDigits 10 m).length
  if m = 0 ∨ digits + e < 300 then true
  else if 320 < digits + e then false
  else if 0 ≤ e then m * 10 ^ e.toNat < fractionLimit
  else m < fractionLimit * 10 ^ (-e).toNat

/-- An optional sign: whether it is a minus, and the rest. -/
def splitSign : List Char → Bool × List Char
  | '+' :: cs => (false, cs)
  | '-' :: cs => (true, cs)
  | cs => (false, cs)

/-- The exponent at the end of a fraction; no exponent is zero. -/
def exponent? : List Char → Option Int
  | [] => some 0
  | c :: cs =>
    let (negative, ds) := splitSign cs
    if (c = 'e' || c = 'E') && !ds.isEmpty && ds.all Char.isDigit then
      let n : Int := digitsValue 10 ds
      some (if negative then -n else n)
    else none

/-- Whether characters spell a decimal fraction that a double can hold. -/
def isDecimal (cs : List Char) : Bool :=
  let (_, cs) := splitSign cs
  let (whole, cs) := cs.span Char.isDigit
  let (frac, cs) := match cs with
    | '.' :: cs => cs.span Char.isDigit
    | cs => ([], cs)
  match exponent? cs with
  | some e =>
    !(whole ++ frac).isEmpty && withinRange (digitsValue 10 (whole ++ frac)) (e - frac.length)
  | none => false

/-- Whether a run of characters is a fraction. -/
def isFraction (cs : List Char) : Bool :=
  let parts := fractionParts cs
  parts.all underscoresFit && !(parts.head?.any hasLeadingZero) && pointsFit cs
    && isDecimal (cs.filter (· ≠ '_'))

/-! ## Moments -/

/-- A number of exactly so many digits. -/
def fixedNumber (width : Nat) : Step Nat := fun cs =>
  let ds := cs.take width
  if ds.length = width && ds.all Char.isDigit then some (digitsValue 10 ds, cs.drop width) else none

/-- A given character. -/
def exactly (c : Char) : Step Unit := fun cs =>
  match cs with
  | d :: cs => if c = d then some ((), cs) else none
  | [] => none

/-- The days of a month. -/
def daysIn (year month : Nat) : Nat :=
  if month = 2 then
    if year % 4 = 0 ∧ (year % 100 ≠ 0 ∨ year % 400 = 0) then 29 else 28
  else if month = 4 ∨ month = 6 ∨ month = 9 ∨ month = 11 then 30
  else 31

/-- A date that exists. -/
def date : Step Unit := fun cs => do
  let (year, cs) ← fixedNumber 4 cs
  let (_, cs) ← exactly '-' cs
  let (month, cs) ← fixedNumber 2 cs
  let (_, cs) ← exactly '-' cs
  let (day, cs) ← fixedNumber 2 cs
  if 1 ≤ month ∧ month ≤ 12 ∧ 1 ≤ day ∧ day ≤ daysIn year month then some ((), cs) else none

/-- Optional parts of a second. -/
def secondParts (cs : List Char) : List Char :=
  match cs with
  | '.' :: d :: rest => if d.isDigit then rest.dropWhile Char.isDigit else cs
  | _ => cs

/-- Optional seconds. -/
def seconds : Step Unit := fun cs =>
  match cs with
  | ':' :: cs => do
    let (second, cs) ← fixedNumber 2 cs
    if second < 60 then some ((), secondParts cs) else none
  | cs => some ((), cs)

/-- A time of day. -/
def timeOfDay : Step Unit := fun cs => do
  let (hour, cs) ← fixedNumber 2 cs
  let (_, cs) ← exactly ':' cs
  let (minute, cs) ← fixedNumber 2 cs
  if hour < 24 ∧ minute < 60 then seconds cs else none

/-- Whether characters are an offset from universal time, or none. -/
def isOffset : List Char → Bool
  | [] => true
  | ['Z'] => true
  | s :: cs => (do
      let (hours, cs) ← fixedNumber 2 cs
      let (_, cs) ← exactly ':' cs
      let (minutes, cs) ← fixedNumber 2 cs
      return isSign s && hours ≤ 24 && minutes ≤ 60 && cs.isEmpty).getD false

/-- One spelling for the letters and the blank that may divide a moment. -/
def momentChar (c : Char) : Char :=
  if c = 't' ∨ c = ' ' then 'T' else if c = 'z' then 'Z' else c

/-- Whether a run of characters is a moment. -/
def isMoment (cs : List Char) : Bool :=
  let cs := cs.map momentChar
  match date cs with
  | some (_, []) => true
  | some (_, 'T' :: cs) => (timeOfDay cs).any fun (_, cs) => isOffset cs
  | some _ => false
  | none => (timeOfDay cs).any fun (_, cs) => cs.isEmpty

/-! ## Cutting numbers out -/

/-- Whether a character can stand in a fraction. -/
def inFraction (c : Char) : Bool :=
  c.isDigit || c = '_' || c = '.' || isSign c || c = 'e' || c = 'E'

/-- Whether a character can stand in a moment. -/
def inMoment (c : Char) : Bool :=
  c.isDigit || c = '-' || c = ':' || c = 'T' || c = 't' || c = ' ' || c = '.' || c = 'Z'
    || c = 'z' || c = '+'

/-- A whole number from its characters. -/
def takeInteger (cs rest : List Char) : Option (Scalar × List Char) :=
  (integer? cs).map fun n => (.integer n, rest)

/-- A fraction that starts with the given characters. -/
def takeFraction (front cs : List Char) : Option (Scalar × List Char) :=
  let (more, rest) := cs.span inFraction
  if isFraction (front ++ more) then some (.fraction (String.ofList (front ++ more)), rest)
  else none

/-- The characters without blanks at the end. -/
def trimEnd (cs : List Char) : List Char := (cs.reverse.dropWhile (· = ' ')).reverse

/-- A moment that starts with the given characters; blanks after it belong to nothing. -/
def takeMoment (front cs : List Char) : Option (Scalar × List Char) :=
  let (more, rest) := cs.span inMoment
  let spelled := trimEnd (front ++ more)
  if isMoment spelled then some (.moment (String.ofList spelled), rest) else none

/-- A decimal number that can be no moment. -/
def takeDecimal (front cs : List Char) : Option (Scalar × List Char) :=
  let (more, rest) := cs.span fun c => c.isDigit || c = '_'
  if rest.head?.any dividesFraction then takeFraction (front ++ more) rest
  else takeInteger (front ++ more) rest

/-- A decimal number or a moment. -/
def takeDecimalOrMoment (front cs : List Char) : Option (Scalar × List Char) :=
  let (more, rest) := cs.span Char.isDigit
  if rest.head?.any fun c => c = '-' || c = ':' then takeMoment (front ++ more) rest
  else takeDecimal (front ++ more) rest

/-- A whole number after the mark of its base. -/
def takeBased (mark : Char) (isDigit : Char → Bool) (cs : List Char) :
    Option (Scalar × List Char) :=
  let (more, rest) := cs.span fun c => isDigit c || c = '_'
  if cs.head?.any isDigit then takeInteger ('0' :: mark :: more) rest else none

/-- A number or a moment that starts with a zero. -/
def takeZero : List Char → Option (Scalar × List Char)
  | 'b' :: cs => takeBased 'b' (fun c => c = '0' || c = '1') cs
  | 'o' :: cs => takeBased 'o' (fun c => '0' ≤ c && c ≤ '7') cs
  | 'x' :: cs => takeBased 'x' isHexDigit cs
  | c :: cs =>
    if c.isDigit then takeDecimalOrMoment ['0', c] cs else takeDecimal ['0'] (c :: cs)
  | [] => takeDecimal ['0'] []

/-- A number after its sign. -/
def takeSigned (sign : Char) : List Char → Option (Scalar × List Char)
  | 'i' :: 'n' :: 'f' :: cs => some (.fraction (String.ofList [sign, 'i', 'n', 'f']), cs)
  | 'n' :: 'a' :: 'n' :: cs => some (.fraction (String.ofList [sign, 'n', 'a', 'n']), cs)
  | c :: cs => if c.isDigit then takeDecimal [sign, c] cs else none
  | [] => none

/-- A number, a moment or a word that stands for a value. -/
def scalarWord : Step Scalar
  | 't' :: 'r' :: 'u' :: 'e' :: cs => some (.bool true, cs)
  | 'f' :: 'a' :: 'l' :: 's' :: 'e' :: cs => some (.bool false, cs)
  | 'i' :: 'n' :: 'f' :: cs => some (.fraction "inf", cs)
  | 'n' :: 'a' :: 'n' :: cs => some (.fraction "nan", cs)
  | '0' :: cs => takeZero cs
  | c :: cs =>
    if isSign c then takeSigned c cs
    else if c.isDigit then takeDecimalOrMoment [c] cs
    else none
  | [] => none

end ManagedImage.Settings.Toml
