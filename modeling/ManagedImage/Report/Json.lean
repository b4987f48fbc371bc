/-
Documents as indented JSON.

Two blanks per level, one member per line, nothing between the brackets of an
empty list. Strings are safe inside a web page: angle brackets and ampersands
are written as escapes, and so are the two line separators that scripts take for
line ends. A byte that belongs to no code point is written as the replacement
character.
-/
import ManagedImage.Report.Document
import ManagedImage.Text.Rune

set_option autoImplicit false

namespace ManagedImage.Report.Json

/-! ## Strings -/

/-- The letter that follows the backslash for a control character that has one. -/
def shortEscape? (c : Char) : Option Char :=
  match c.toNat with
  | 0x08 => some 'b'
  | 0x0C => some 'f'
  | 0x0A => some 'n'
  | 0x0D => some 'r'
  | 0x09 => some 't'
  | _ => none

/-- The escape that names a code point by four digits. -/
def numberedEscape (n : Nat) : String := "\\u" ++ hexPad 4 n

/-- Whether a code point is written by its number though it could stand as it is. -/
def isGuarded (c : Char) : Bool :=
  c = '<' || c = '>' || c = '&' || c.toNat = 0x2028 || c.toNat = 0x2029

/-- The spelling of one code point inside a string. -/
def spellChar (c : Char) : String :=
  if c = '"' || c = '\\' then String.ofList ['\\', c]
  else match shortEscape? c with
    | some e => String.ofList ['\\', e]
    | none =>
      if c.toNat < 0x20 || isGuarded c then numberedEscape c.toNat else String.singleton c

/-- The spelling of one rune inside a string. -/
def spell : Rune → String
  | .char c => spellChar c
  | .stray _ => String.singleton Rune.replacement

/-- A text as a JSON string. -/
def string (t : Text) : String := "\"" ++ String.join (t.runes.map spell) ++ "\""

/-! ## Trees -/

/-- A new line at a level. -/
def lineBreak (level : Nat) : String := "\n" ++ String.ofList (List.replicate (2 * level) ' ')

/-- Members between brackets, one a line. -/
def bracketed (opening closing : String) (level : Nat) (members : List String) : String :=
  if members.isEmpty then opening ++ closing
  else
    opening ++ lineBreak (level + 1) ++ String.intercalate ("," ++ lineBreak (level + 1)) members
      ++ lineBreak level ++ closing

mutual

/-- A document whose first character stands at a level. -/
def render (level : Nat) : Document → String
  | .null => "null"
  | .bool b => boolWord b
  | .number n => decimal n
  | .text t => string t
  | .list items => bracketed "[" "]" level (renderItems (level + 1) items)
  | .record fields => bracketed "\x7b" "\x7d" level (renderFields (level + 1) fields)

/-- The members of a list. -/
def renderItems (level : Nat) : List Document → List String
  | [] => []
  | d :: rest => render level d :: renderItems level rest

/-- The members of a record. -/
def renderFields (level : Nat) : List (String × Document) → List String
  | [] => []
  | (name, d) :: rest =>
    (string name ++ ": " ++ render level d) :: renderFields level rest

end

end ManagedImage.Report.Json

/-- A summary as JSON, ended by a new line. -/
def ManagedImage.Report.Summary.json (s : ManagedImage.Report.Summary) : String :=
  ManagedImage.Report.Json.render 0 s.document ++ "\n"
