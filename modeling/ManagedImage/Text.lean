/-
Text as the file format knows it: a run of bytes that is usually, but not
always, UTF-8.

Names come out of a heap that nobody has checked, and they flow into rendered
types, error messages and listings. A `String` cannot hold them, because it
carries a proof of validity; so text is its bytes, string literals coerce into
it, and validity is a question asked at the end, when the text is shown.

The second half of the file holds the number spellings the output uses.
-/

set_option autoImplicit false

namespace ManagedImage

/-- A run of bytes meant to be read as UTF-8. -/
structure Text where
  /-- The bytes, valid UTF-8 or not. -/
  bytes : ByteArray

/-- Texts are compared by their bytes. -/
instance : DecidableEq Text := fun a b =>
  match ByteArray.instDecidableEq a.bytes b.bytes with
  | .isTrue h => .isTrue (by cases a; cases b; exact congrArg Text.mk h)
  | .isFalse h => .isFalse fun e => h (congrArg Text.bytes e)

namespace Text

/-- The text of a string: its UTF-8 encoding. -/
def ofString (s : String) : Text := ⟨s.toUTF8⟩

instance : Coe String Text := ⟨ofString⟩

instance : Inhabited Text := ⟨⟨ByteArray.empty⟩⟩

instance : Append Text := ⟨fun a b => ⟨a.bytes ++ b.bytes⟩⟩

/-- The text without bytes. -/
def empty : Text := ⟨ByteArray.empty⟩

/-- Whether the text has no bytes. -/
def isEmpty (t : Text) : Bool := t.bytes.size == 0

/-- The number of bytes. -/
def size (t : Text) : Nat := t.bytes.size

/-- The bytes as a list, the view that recursion and proofs use. -/
def toList (t : Text) : List UInt8 := t.bytes.data.toList

/-- The text with the given bytes. -/
def ofList (bs : List UInt8) : Text := ⟨bs.toByteArray⟩

/-- The string this text spells, if its bytes are valid UTF-8. -/
def toString? (t : Text) : Option String := String.fromUTF8? t.bytes

/-- Whether the bytes are valid UTF-8. -/
def isValid (t : Text) : Bool := t.bytes.validateUTF8

/-- All parts in order, nothing between them. -/
def concat (parts : List Text) : Text := parts.foldl (· ++ ·) empty

/-- The parts in order with `sep` between neighbours. -/
def join (sep : Text) : List Text → Text
  | [] => empty
  | t :: rest => rest.foldl (fun acc u => acc ++ sep ++ u) t

/-- The text repeated `n` times. -/
def replicate (n : Nat) (t : Text) : Text := concat (List.replicate n t)

/-- Whether the bytes of `needle` occur in a row somewhere in `hay`. -/
def occursIn (needle : List UInt8) : List UInt8 → Bool
  | [] => needle.isEmpty
  | b :: rest => needle.isPrefixOf (b :: rest) || occursIn needle rest

/-- Whether `needle` occurs in the text. -/
def contains (t needle : Text) : Bool := occursIn needle.toList t.toList

/-- The part before the first `mark` and the part after it. -/
def cutList (mark : List UInt8) : List UInt8 → Option (List UInt8 × List UInt8)
  | [] => if mark.isEmpty then some ([], []) else none
  | b :: rest =>
    if mark.isPrefixOf (b :: rest) then some ([], (b :: rest).drop mark.length)
    else (cutList mark rest).map fun (a, z) => (b :: a, z)

/-- The text split around the first occurrence of `mark`. -/
def cut? (t mark : Text) : Option (Text × Text) :=
  (cutList mark.toList t.toList).map fun (a, z) => (ofList a, ofList z)

end Text

/-! ## Number spellings -/

/-- The lower-case hexadecimal digits of `n`, without leading zeros. -/
def hex (n : Nat) : String := String.ofList (Nat.toDigits 16 n)

/-- The upper-case hexadecimal digits of `n`. -/
def hexUpper (n : Nat) : String := String.ofList ((Nat.toDigits 16 n).map Char.toUpper)

/-- The string widened to `width` characters by `fill` on the left. -/
def padLeft (width : Nat) (fill : Char) (s : String) : String :=
  String.ofList (List.replicate (width - s.length) fill) ++ s

/-- Lower-case hexadecimal with at least `width` digits. -/
def hexPad (width n : Nat) : String := padLeft width '0' (hex n)

/-- Upper-case hexadecimal with at least `width` digits. -/
def hexPadUpper (width n : Nat) : String := padLeft width '0' (hexUpper n)

/-- A signed number in lower-case hexadecimal: a minus sign, then the digits of its size. -/
def hexInt (n : Int) : String := if n < 0 then "-" ++ hex n.natAbs else hex n.natAbs

/-- Zero padding of a signed number counts the sign as one of the `width` places. -/
def hexIntPadUpper (width : Nat) (n : Int) : String :=
  if n < 0 then "-" ++ hexPadUpper (width - 1) n.natAbs else hexPadUpper width n.natAbs

/-- A signed number in decimal. -/
def decimal (n : Int) : String := if n < 0 then "-" ++ toString n.natAbs else toString n.natAbs

/-- `true` or `false`. -/
def boolWord (b : Bool) : String := if b then "true" else "false"

end ManagedImage
