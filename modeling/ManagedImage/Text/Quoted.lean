/-
Quoted text: double quotes around a spelling in which every rune can be read
back. A printable code point stands as it is, the usual control characters have
a letter, a stray byte is written `\xNN`, and all else is `\x`, `\u` or `\U`
with two, four or eight digits.
-/
import ManagedImage.Text.Rune
import ManagedImage.Text.Printable

set_option autoImplicit false

namespace ManagedImage.Quoted

/-- The letter that follows the backslash for a control character that has one. -/
def shortEscape? (c : Char) : Option Char :=
  match c.toNat with
  | 0x07 => some 'a'
  | 0x08 => some 'b'
  | 0x0C => some 'f'
  | 0x0A => some 'n'
  | 0x0D => some 'r'
  | 0x09 => some 't'
  | 0x0B => some 'v'
  | _ => none

/-- The spelling of one code point inside quotes. -/
def spellChar (c : Char) : String :=
  if c = '"' || c = '\\' then String.ofList ['\\', c]
  else if Printable.isPrintable c then String.singleton c
  else match shortEscape? c with
    | some e => String.ofList ['\\', e]
    | none =>
      if c.toNat < 0x20 || c.toNat = 0x7F then "\\x" ++ hexPad 2 c.toNat
      else if c.toNat < 0x10000 then "\\u" ++ hexPad 4 c.toNat
      else "\\U" ++ hexPad 8 c.toNat

/-- The spelling of one rune inside quotes. -/
def spell : Rune → String
  | .char c => spellChar c
  | .stray b => "\\x" ++ hexPad 2 b.toNat

end ManagedImage.Quoted

/-- The text in quotes. -/
def ManagedImage.Text.quoted (t : ManagedImage.Text) : ManagedImage.Text :=
  ManagedImage.Text.ofString ("\"" ++ String.join (t.runes.map Quoted.spell) ++ "\"")
