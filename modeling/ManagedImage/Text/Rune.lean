/-
Reading text as code points.

A reader of unchecked bytes must decide what to do with those that start no
valid sequence. Here each such byte stands for itself as a `stray`, and reading
goes on with the next byte; so the bytes of a text are always the encodings of
its runes, one after the other. What a stray byte looks like on output is left
to whoever prints it.
-/
import ManagedImage.Text

set_option autoImplicit false

namespace ManagedImage

/-- One step of reading text: a code point, or a byte that belongs to none. -/
inductive Rune where
  /-- A validly encoded code point. -/
  | char (c : Char)
  /-- A byte that starts no valid sequence. -/
  | stray (b : UInt8)
deriving DecidableEq

namespace Rune

/-- Whether the byte continues a sequence. -/
def isContinuation (b : UInt8) : Bool := 0x80 ≤ b && b ≤ 0xBF

/-- The smallest second byte that may follow a lead byte: it rules out overlong forms. -/
def secondLow (lead : UInt8) : UInt8 :=
  if lead = 0xE0 then 0xA0 else if lead = 0xF0 then 0x90 else 0x80

/-- The largest second byte: it rules out surrogates and numbers past the last code point. -/
def secondHigh (lead : UInt8) : UInt8 :=
  if lead = 0xED then 0x9F else if lead = 0xF4 then 0x8F else 0xBF

/-- The six payload bits of a continuation byte. -/
def payload (b : UInt8) : Nat := b.toNat % 64

/-- The runes of a byte list. -/
def decode : List UInt8 → List Rune
  | [] => []
  | b :: rest =>
    if b < 0x80 then .char (Char.ofNat b.toNat) :: decode rest
    -- A continuation byte, or a leading byte of what one byte spells.
    else if b < 0xC2 then .stray b :: decode rest
    else if b < 0xE0 then
      match rest with
      | c :: rest' =>
        if isContinuation c then
          .char (Char.ofNat (b.toNat % 32 * 64 + payload c)) :: decode rest'
        else .stray b :: decode (c :: rest')
      | [] => [.stray b]
    else if b < 0xF0 then
      match rest with
      | c :: d :: rest' =>
        if secondLow b ≤ c && c ≤ secondHigh b && isContinuation d then
          .char (Char.ofNat ((b.toNat % 16 * 64 + payload c) * 64 + payload d)) :: decode rest'
        else .stray b :: decode (c :: d :: rest')
      | rest' => .stray b :: decode rest'
    else if b < 0xF5 then
      match rest with
      | c :: d :: e :: rest' =>
        if secondLow b ≤ c && c ≤ secondHigh b && isContinuation d && isContinuation e then
          .char (Char.ofNat
            (((b.toNat % 8 * 64 + payload c) * 64 + payload d) * 64 + payload e)) :: decode rest'
        else .stray b :: decode (c :: d :: e :: rest')
      | rest' => .stray b :: decode rest'
    else .stray b :: decode rest
termination_by bs => bs.length

/-- The bytes a rune was read from. -/
def encode : Rune → List UInt8
  | .char c => (String.singleton c).toUTF8.data.toList
  | .stray b => [b]

/-- What stands in for a stray byte where only code points may stand. -/
def replacement : Char := Char.ofNat 0xFFFD

/-- The code point, a stray byte becoming the replacement character. -/
def toChar : Rune → Char
  | .char c => c
  | .stray _ => replacement

end Rune

/-- The runes of a text. -/
def Text.runes (t : Text) : List Rune := Rune.decode t.toList

/-- The number of runes, which is what column widths count. -/
def Text.runeCount (t : Text) : Nat := t.runes.length

/-- The text followed by blanks up to `width` runes. -/
def Text.padRight (width : Nat) (t : Text) : Text :=
  t ++ (String.ofList (List.replicate (width - t.runeCount) ' ') : Text)

/-- The text of a list of code points. -/
def Text.ofChars (cs : List Char) : Text := (String.ofList cs : Text)

end ManagedImage
