/-
Flags on a command line.

A flag has a long name and often a letter. A switch needs no value; any other
flag takes the rest of its word after an equals sign or, for a letter, after the
letter itself, or else the next word. Letters may be clustered behind one dash.
Two dashes alone end the flags. Words that are no flags are arguments, wherever
they stand.
-/
import ManagedImage.Number.Literal
import ManagedImage.Text.Template

set_option autoImplicit false

namespace ManagedImage.Command

/-- What a flag takes. -/
inductive FlagKind where
  /-- A text. -/
  | text
  /-- Nothing, or a truth value after an equals sign. -/
  | switch
  /-- A whole number. -/
  | number
deriving DecidableEq, Repr

/-- A flag that a command knows. -/
structure Flag where
  /-- Its long name. -/
  name : String
  /-- Its letter. -/
  letter : Option Char
  /-- What it takes. -/
  kind : FlagKind

/-- What a flag was set to. -/
inductive FlagValue where
  /-- A text. -/
  | text (t : Text)
  /-- On or off. -/
  | switch (b : Bool)
  /-- A whole number. -/
  | number (n : Int)

/-- A command line taken apart. -/
structure Parsed where
  /-- The flags in the order they were set. -/
  values : List (String × FlagValue)
  /-- The arguments in order. -/
  args : List Text

/-- What is wrong with a command line. -/
inductive FlagFault where
  /-- No flag has this name. -/
  | unknownName (name : Text)
  /-- No flag has this letter. -/
  | unknownLetter (letter : UInt8) (cluster : Text)
  /-- A flag is not followed by its value. -/
  | nameNeedsValue (name : Text)
  /-- A letter is not followed by its value. -/
  | letterNeedsValue (letter : UInt8) (cluster : Text)
  /-- A value is not of the kind that the flag takes. -/
  | badValue (flag : Flag) (value : Text) (cause : Text)
  /-- A word is neither flag nor argument. -/
  | badWord (word : Text)

/-- A flag with all its names. -/
def Flag.title (f : Flag) : Text :=
  match f.letter with
  | some c => ("-" ++ String.singleton c ++ ", --" ++ f.name : String)
  | none => ("--" ++ f.name : String)

/-- How it is said. -/
def FlagFault.message : FlagFault → Text
  | .unknownName name => "unknown flag: --" ++ name
  | .unknownLetter b cluster =>
    "unknown shorthand flag: " ++ Template.quotedChar b.toNat ++ " in -" ++ cluster
  | .nameNeedsValue name => "flag needs an argument: --" ++ name
  | .letterNeedsValue b cluster =>
    "flag needs an argument: " ++ Template.quotedChar b.toNat ++ " in -" ++ cluster
  | .badValue f value cause =>
    "invalid argument " ++ value.quoted ++ " for " ++ f.title.quoted ++ " flag: " ++ cause
  | .badWord word => "bad flag syntax: " ++ word

/-! ## Values -/

/-- The words for truth values. -/
def boolWords : List (String × Bool) := [
  ("1", true), ("t", true), ("T", true), ("true", true), ("TRUE", true), ("True", true),
  ("0", false), ("f", false), ("F", false), ("false", false), ("FALSE", false), ("False", false)]

/-- The complaint of a reader of values. -/
def complaint (reader : String) (value : Text) (detail : String) : Text :=
  ("strconv." ++ reader ++ ": parsing " : String) ++ value.quoted ++ (": " ++ detail : String)

/-- The value of a flag from its text. -/
def Flag.read (f : Flag) (value : Text) : Except FlagFault (String × FlagValue) :=
  match f.kind with
  | .text => .ok (f.name, .text value)
  | .switch =>
    match boolWords.find? fun e => Text.ofString e.1 = value with
    | some (_, b) => .ok (f.name, .switch b)
    | none => .error (.badValue f value (complaint "ParseBool" value "invalid syntax"))
  | .number =>
    match Literal.signed64 value.toList with
    | .ok n => .ok (f.name, .number n)
    | .error e => .error (.badValue f value (complaint "ParseInt" value e.message))

/-! ## Words -/

/-- The flag of a name. -/
def named? (flags : List Flag) (name : Text) : Option Flag :=
  flags.find? fun f => Text.ofString f.name = name

/-- The flag of a letter. -/
def lettered? (flags : List Flag) (b : UInt8) : Option Flag :=
  flags.find? fun f => f.letter.any fun c => c.toNat = b.toNat

/-- The byte of a dash. -/
def dash : UInt8 := 0x2D

/-- The byte of an equals sign. -/
def equals : UInt8 := 0x3D

/-- What a word sets, and the words left after it. -/
abbrev Taken := List (String × FlagValue) × List Text

/-- Takes a flag by its name, `body` being the word after its dashes. -/
def takeNamed (flags : List Flag) (body : List UInt8) (rest : List Text) :
    Except FlagFault Taken := do
  let word := Text.ofList body
  let (name, value?) := match word.cut? "=" with
    | some (name, value) => (name, some value)
    | none => (word, none)
  match named? flags name with
  | none => throw (.unknownName name)
  | some f =>
    match value?, f.kind, rest with
    | some value, _, rest => return ([← f.read value], rest)
    | none, .switch, rest => return ([(f.name, .switch true)], rest)
    | none, _, value :: rest => return ([← f.read value], rest)
    | none, _, [] => throw (.nameNeedsValue name)

/-- The start of a word that is meant for a test runner and passed over. -/
def testMark : List UInt8 := (Text.ofString "test.").toList

/-- Takes the flags of a cluster of letters. -/
def takeLetters (flags : List Flag) : List UInt8 → List Text → Except FlagFault Taken
  | [], rest => .ok ([], rest)
  | b :: more, rest =>
    if testMark.isPrefixOf (b :: more) then .ok ([], rest)
    else
      match lettered? flags b with
      | none => .error (.unknownLetter b (Text.ofList (b :: more)))
      | some f =>
        -- A value follows an equals sign, stands right behind its letter, or is the next word.
        if more.head? = some equals ∧ 1 < more.length then do
          return ([← f.read (Text.ofList (more.drop 1))], rest)
        else if f.kind = .switch then do
          let (values, rest) ← takeLetters flags more rest
          return ((f.name, .switch true) :: values, rest)
        else
          match more, rest with
          | _ :: _, rest => do return ([← f.read (Text.ofList more)], rest)
          | [], value :: rest => do return ([← f.read value], rest)
          | [], [] => .error (.letterNeedsValue b (Text.ofList [b]))

/-- Takes one word that starts with a dash and is not a dash or two alone. -/
def takeWord (flags : List Flag) (word : Text) (rest : List Text) : Except FlagFault Taken :=
  match word.toList.drop 1 with
  | 0x2D :: body =>
    if body.head?.any fun b => b = dash || b = equals then .error (.badWord word)
    else takeNamed flags body rest
  | cluster => takeLetters flags cluster rest

/-- Whether a word is a flag or several. -/
def isFlagWord (word : Text) : Bool := word.toList.head? = some dash && 1 < word.size

/-- Takes a command line apart. Each word takes some of the fuel. -/
def parseWords (flags : List Flag) : (fuel : Nat) → List Text → Except FlagFault Parsed
  | 0, _ => .ok ⟨[], []⟩
  | _, [] => .ok ⟨[], []⟩
  | fuel + 1, word :: rest => do
    if !isFlagWord word then
      let p ← parseWords flags fuel rest
      return { p with args := word :: p.args }
    else if word = "--" then return ⟨[], rest⟩
    else
      let (values, rest) ← takeWord flags word rest
      let p ← parseWords flags fuel rest
      return { p with values := values ++ p.values }

/-- Takes a command line apart. -/
def parseFlags (flags : List Flag) (words : List Text) : Except FlagFault Parsed :=
  parseWords flags words.length words

namespace Parsed

/-- The last value of a flag. -/
def value? (p : Parsed) (name : String) : Option FlagValue := p.values.reverse.lookup name

/-- The text of a flag, empty if it was not set. -/
def text (p : Parsed) (name : String) : Text :=
  match p.value? name with
  | some (.text t) => t
  | _ => Text.empty

/-- Whether a switch was set, and to what. -/
def switch? (p : Parsed) (name : String) : Option Bool :=
  match p.value? name with
  | some (.switch b) => some b
  | _ => none

/-- Whether a switch is on. -/
def switch (p : Parsed) (name : String) : Bool := (p.switch? name).getD false

/-- The number of a flag, zero if it was not set. -/
def number (p : Parsed) (name : String) : Int :=
  match p.value? name with
  | some (.number n) => n
  | _ => 0

end Parsed

end ManagedImage.Command
