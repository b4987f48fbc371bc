/-
Message templates: text in which a percent sign opens a directive that the next
argument fills.

A directive is flags, a width, a precision after a point, and a verb. `%d` is
decimal, `%b`, `%o`, `%x` and `%X` are other bases, `%c` is a character, `%s`
text, `%q` quoted text or a quoted character, and `%v` whatever fits the
argument. A verb that does not fit its argument, an argument too few or too many
are spelled out in the message rather than refused, so that building a message
never fails.
-/
import ManagedImage.Text.Quoted

set_option autoImplicit false

namespace ManagedImage.Template

/-- What a directive may be filled with. -/
inductive Arg where
  /-- A number. -/
  | int (n : Int)
  /-- A piece of text. -/
  | text (t : Text)

/-- How a directive wants its argument shown. -/
structure Style where
  /-- Whether a base is marked, and text quoted in its shortest form. -/
  marked : Bool := false
  /-- Whether zeros pad on the left, not blanks. -/
  zeros : Bool := false
  /-- Whether every number has a sign, and quoted text is ASCII. -/
  signed : Bool := false
  /-- Whether padding goes on the right. -/
  onRight : Bool := false
  /-- Whether a blank stands where a sign may, and between bytes. -/
  spaced : Bool := false
  /-- The least number of runes. -/
  width : Nat := 0
  /-- The least number of digits, or the most runes of a text. -/
  precision : Option Nat := none

/-! ## Padding -/

/-- The text padded to the width of the style. -/
def Style.pad (s : Style) (t : Text) : Text :=
  let missing := s.width - t.runeCount
  if s.onRight then t ++ Text.ofChars (List.replicate missing ' ')
  else Text.ofChars (List.replicate missing (if s.zeros then '0' else ' ')) ++ t

/-- The first runes of a text, as many as the style allows. -/
def Style.cut (s : Style) (t : Text) : Text :=
  match s.precision with
  | some n => Text.ofList ((t.runes.take n).flatMap Rune.encode)
  | none => t

/-! ## Numbers -/

/-- The mark in front of the digits of a base. Octal digits that start with a zero need none. -/
def Style.baseMark (s : Style) (verb : Char) (digits : String) : String :=
  if verb = 'O' then "0o"
  else if ¬ s.marked then ""
  else match verb with
    | 'b' => "0b"
    | 'o' => if digits.startsWith "0" then "" else "0"
    | 'x' => "0x"
    | 'X' => "0X"
    | _ => ""

/-- The digits of a size in the base of a verb. -/
def digitsOf (verb : Char) (n : Nat) : String :=
  match verb with
  | 'b' => String.ofList (Nat.toDigits 2 n)
  | 'o' | 'O' => String.ofList (Nat.toDigits 8 n)
  | 'x' => hex n
  | 'X' => hexUpper n
  | _ => toString n

/-- A number in the base of a verb. Zeros go between the sign and the digits, and a precision of
zero shows nothing for zero. -/
def Style.number (s : Style) (verb : Char) (n : Int) : Text :=
  let blanks := { s with zeros := false }
  let sign := if n < 0 then "-" else if s.signed then "+" else if s.spaced then " " else ""
  let least := match s.precision with
    | some p => p
    | none => if s.zeros && !s.onRight then s.width - sign.length else 0
  if s.precision = some 0 && n = 0 then blanks.pad Text.empty
  else
    let digits := padLeft least '0' (digitsOf verb n.natAbs)
    blanks.pad (sign ++ s.baseMark verb digits ++ digits : String)

/-- The code point of a number, the replacement character if there is none. -/
def charOf (n : Int) : Char :=
  if 0 ≤ n && n.toNat.isValidChar then Char.ofNat n.toNat else Rune.replacement

/-- The spelling of a code point in quotes that are ASCII throughout. -/
def spellAscii (c : Char) : String :=
  if c.toNat < 0x80 then Quoted.spellChar c
  else if c.toNat < 0x10000 then "\\u" ++ hexPad 4 c.toNat
  else "\\U" ++ hexPad 8 c.toNat

/-- A number as a quoted character, spelled in a given way. -/
def quotedCharBy (spell : Char → String) (n : Int) : Text :=
  let c := charOf n
  let inner := if c = '\'' then "\\'" else if c = '"' then "\"" else spell c
  ("'" ++ inner ++ "'" : Text)

/-- A number as a quoted character. -/
def quotedChar (n : Int) : Text := quotedCharBy Quoted.spellChar n

/-- A number as the name of a code point. -/
def Style.codePoint (s : Style) (n : Int) : Text :=
  let size := if n < 0 then 0x10000000000000000 - n.natAbs else n.natAbs
  let name := "U+" ++ hexPadUpper (max 4 (s.precision.getD 0)) size
  let shown := if s.marked && 0 ≤ n && Printable.isPrintable (charOf n) && n.toNat.isValidChar
    then " '" ++ String.singleton (charOf n) ++ "'" else ""
  { s with zeros := false }.pad (name ++ shown : String)

/-! ## Text -/

/-- The hexadecimal digits of every byte. -/
def Style.hexBytes (s : Style) (upper : Bool) (t : Text) : Text :=
  let bytes := (s.precision.elim t.toList t.toList.take).map fun b =>
    if upper then hexPadUpper 2 b.toNat else hexPad 2 b.toNat
  let mark := if s.marked && !bytes.isEmpty then (if upper then "0X" else "0x") else ""
  let between := if s.spaced then " " ++ mark else ""
  s.pad (mark ++ between.intercalate bytes : String)

/-- Whether a text can stand between back quotes as it is. -/
def fitsBackQuotes (t : Text) : Bool :=
  t.runes.all fun
    | .stray _ => false
    | .char c => c.toNat ≠ 0xFEFF && c.toNat ≠ 0x60 && c.toNat ≠ 0x7F
        && (0x20 ≤ c.toNat || c.toNat = 0x09)

/-- The text in quotes. -/
def Style.quoted (s : Style) (t : Text) : Text :=
  let t := s.cut t
  let spell : Rune → String
    | .char c => spellAscii c
    | .stray b => Quoted.spell (.stray b)
  s.pad (if s.marked && fitsBackQuotes t then "\x60" ++ t ++ ("\x60" : Text)
    else if s.signed then ("\"" ++ String.join (t.runes.map spell) ++ "\"" : String)
    else t.quoted)

/-! ## Directives -/

/-- An argument shown the way that fits it. -/
def Style.plain (s : Style) : Arg → Text
  | .int n => s.number 'd' n
  | .text t => s.pad (s.cut t)

/-- The kind of an argument. -/
def Arg.kind : Arg → String
  | .int _ => "int64"
  | .text _ => "string"

/-- The kind and value of an argument, shown where no directive shows it. -/
def Arg.described (s : Style) (a : Arg) : Text := (a.kind ++ "=" : String) ++ s.plain a

/-- The directive's complaint about an argument it cannot show. -/
def misfit (s : Style) (verb : Char) (a : Arg) : Text :=
  ("%!" ++ String.singleton verb ++ "(" : String) ++ a.described s ++ (")" : Text)

/-- One directive filled by one argument. -/
def fill (s : Style) (verb : Char) (a : Arg) : Text :=
  match verb, a with
  | 'v', .int n => { s with marked := false, signed := false }.number 'd' n
  | 'v', .text t =>
    if s.marked then { s with marked := false, signed := false }.quoted t else s.pad (s.cut t)
  | 'T', a => s.pad (s.cut a.kind)
  | 'c', .int n => s.pad (Text.ofChars [charOf n])
  | 'q', .int n => s.pad (quotedCharBy (if s.signed then spellAscii else Quoted.spellChar) n)
  | 'U', .int n => s.codePoint n
  | 's', .text t => s.pad (s.cut t)
  | 'q', .text t => s.quoted t
  | 'x', .text t => s.hexBytes false t
  | 'X', .text t => s.hexBytes true t
  | verb, .int n =>
    if verb ∈ ['d', 'b', 'o', 'O', 'x', 'X'] then s.number verb n else misfit s verb a
  | verb, a => misfit s verb a

/-- What is said about arguments that no directive took. -/
def leftover : List Arg → Text
  | [] => Text.empty
  | args => "%!(EXTRA " ++ Text.join ", " (args.map (Arg.described {})) ++ (")" : Text)

/-- The style after one more flag. -/
def Style.flag? (s : Style) : Char → Option Style
  | '#' => some { s with marked := true }
  | '0' => some { s with zeros := true }
  | '+' => some { s with signed := true }
  | '-' => some { s with onRight := true }
  | ' ' => some { s with spaced := true }
  | _ => none

/-- The style that leading flags ask for, and what follows them. -/
def flags (s : Style) : List Char → Style × List Char
  | [] => (s, [])
  | c :: rest =>
    match s.flag? c with
    | some s => flags s rest
    | none => (s, c :: rest)

/-- The number spelled by leading digits, and what follows it. A number past a million that goes
on takes the rest of the template with it. -/
def leadingNumber : (soFar : Nat) → List Char → Nat × List Char
  | n, [] => (n, [])
  | n, c :: rest =>
    if ¬ c.isDigit then (n, c :: rest)
    else if 1000000 < n then (0, [])
    else leadingNumber (n * 10 + (c.toNat - '0'.toNat)) rest

/-- The style of a directive, and its verb with what follows it. -/
def directive (cs : List Char) : Style × List Char :=
  let (s, cs) := flags {} cs
  let (width, cs) := leadingNumber 0 cs
  let s := { s with width }
  match cs with
  | '.' :: cs =>
    let (precision, cs) := leadingNumber 0 cs
    ({ s with precision := some precision }, cs)
  | cs => (s, cs)

/-- The template with its directives filled, `fuel` bounding the characters looked at. -/
def renderChars : (fuel : Nat) → List Char → List Arg → Text
  | 0, _, args => leftover args
  | _, [], args => leftover args
  | fuel + 1, '%' :: rest, args =>
    let (style, rest) := directive rest
    match rest with
    | [] => ("%!(NOVERB)" : Text) ++ leftover args
    | '%' :: rest => ("%" : Text) ++ renderChars fuel rest args
    | verb :: rest =>
      match args with
      | [] => ("%!" ++ String.singleton verb ++ "(MISSING)" : String) ++ renderChars fuel rest []
      | a :: args => fill style verb a ++ renderChars fuel rest args
  | fuel + 1, c :: rest, args => Text.ofChars [c] ++ renderChars fuel rest args

/-- The template with its directives filled in order. -/
def render (template : String) (args : List Arg) : Text :=
  renderChars template.length template.toList args

end ManagedImage.Template
