/-
The command line as a whole: which command is meant and with what.

The first word that is neither a flag nor the value of one names the command.
While it is looked for, only the flags that every command shares are known, so
a flag that is not among them is taken to have a value. A word that names no
command is reported together with the commands it may have been meant for.
-/
import ManagedImage.Command.Flag
import ManagedImage.Text.Lower
import ManagedImage.Metadata.Token

set_option autoImplicit false

namespace ManagedImage.Command

/-! ## Commands -/

/-- What is asked for. -/
inductive Request where
  /-- General facts about an image. -/
  | info
  /-- The tables of an image, or the rows of one. -/
  | tables (table : Text) (limit : Int)
  /-- The types of an image. -/
  | types (filter : Text) (members : Bool) (limit : Int)
  /-- The code of a method. -/
  | code (method : Text) (normalize statements : Option Bool) (stack : Bool)
  /-- A token, a type or a member. -/
  | lookup (query : Text)
  /-- The string literals of an image. -/
  | literals (filter : Text) (limit : Int)
  /-- A summary of an image. -/
  | dump (format : Text)
  /-- An image stored in a database. -/
  | store (database : Text)

/-- A command: its name, its own flags, how many arguments it takes, and what it asks for. The
first argument is always the image. -/
structure Spec where
  /-- Its name. -/
  name : String
  /-- The flags that other commands do not share. -/
  flags : List Flag
  /-- How many arguments it takes. -/
  arity : Nat
  /-- What it asks for, from its flags and the arguments after the image. -/
  request : Parsed → List Text → Request

/-- The flags that every command knows. -/
def sharedFlags : List Flag := [
  ⟨"output", some 'o', .text⟩, ⟨"config", some 'c', .text⟩, ⟨"verbose", some 'v', .switch⟩,
  ⟨"no-color", none, .switch⟩]

/-- The flag that asks for help. -/
def helpFlag : Flag := ⟨"help", some 'h', .switch⟩

/-- The flag that limits a list. -/
def limitFlag : Flag := ⟨"limit", some 'n', .number⟩

/-- The flag that filters a list. -/
def filterFlag : Flag := ⟨"filter", some 'f', .text⟩

/-- The commands in order. -/
def specs : List Spec := [
  ⟨"info", [], 1, fun _ _ => .info⟩,
  ⟨"tables", [⟨"table", some 't', .text⟩, limitFlag], 1,
    fun p _ => .tables (p.text "table") (p.number "limit")⟩,
  ⟨"types", [filterFlag, ⟨"members", some 'm', .switch⟩, limitFlag], 1,
    fun p _ => .types (p.text "filter") (p.switch "members") (p.number "limit")⟩,
  ⟨"il", [⟨"normalize", none, .switch⟩, ⟨"statements", none, .switch⟩, ⟨"stack", none, .switch⟩], 2,
    fun p args => .code (args.headD Text.empty) (p.switch? "normalize") (p.switch? "statements")
      (p.switch "stack")⟩,
  ⟨"lookup", [], 2, fun _ args => .lookup (args.headD Text.empty)⟩,
  ⟨"strings", [filterFlag, limitFlag], 1,
    fun p _ => .literals (p.text "filter") (p.number "limit")⟩,
  ⟨"dump", [⟨"format", some 'f', .text⟩], 1, fun p _ => .dump (p.text "format")⟩,
  ⟨"export", [], 2, fun _ args => .store (args.headD Text.empty)⟩]

/-- Names that ask about the program itself. -/
def selfNames : List String := ["help", "completion"]

/-! ## Suggestions -/

/-- The next row of edit distances, given the one before it and its own first entry. -/
def nextDistances (a : UInt8) : (left diagonal : Nat) → List UInt8 → List Nat → List Nat
  | left, diagonal, b :: bs, above :: row =>
    let here := if a = b then diagonal else 1 + min left (min above diagonal)
    here :: nextDistances a here above bs row
  | _, _, _, _ => []

/-- How many bytes have to be put in, left out or replaced to turn one list into the other. -/
def editDistance (as bs : List UInt8) : Nat :=
  let rows := as.foldl
    (fun (n, row) a => (n + 1, (n + 1) :: nextDistances a (n + 1) n bs (row.drop 1)))
    (0, List.range (bs.length + 1))
  rows.2.getLast?.getD 0

/-- Whether a word, in small letters, may have been meant for a name: at most two edits away, or
the start of it. -/
def resembles (word : Text) (name : String) : Bool :=
  let w := word.lowered.toList
  let n := (Text.ofString name).toList
  editDistance w n ≤ 2 || w.isPrefixOf n

/-- The commands that a word may have been meant for. -/
def suggestions (word : Text) : List String :=
  (specs.map (·.name) ++ ["completion"]).filter (resembles word)

/-! ## Finding the command -/

/-- Whether a word is a flag that takes the next word as its value, as far as the shared flags
tell. -/
def takesNext (word : Text) : Bool :=
  let isSwitch (f? : Option Flag) : Bool := f?.any fun f => f.kind = .switch
  let bs := word.toList
  if bs.contains equals then false
  else
    match bs with
    | 0x2D :: 0x2D :: body => !isSwitch (named? sharedFlags (Text.ofList body))
    | [0x2D, b] => !isSwitch (lettered? sharedFlags b)
    | _ => false

/-- The words that are neither flags nor values of flags. A flag that needs a value from the last
word ends the search. -/
def bareWords : List Text → List Text
  | [] => []
  | word :: rest =>
    if word = "--" then []
    else if takesNext word then
      match rest with
      | _ :: next :: rest => bareWords (next :: rest)
      | _ => []
    else if word.isEmpty || word.toList.head? = some dash then bareWords rest
    else word :: bareWords rest
termination_by words => words.length

/-- The words without the first bare one that equals `x`. -/
def withoutFirst (x : Text) : List Text → List Text
  | [] => []
  | word :: rest =>
    if word = "--" then word :: rest
    else if takesNext word then
      match rest with
      | value :: rest => word :: value :: withoutFirst x rest
      | [] => [word]
    else if word.toList.head? ≠ some dash && word = x then rest
    else word :: withoutFirst x rest

/-- A command line understood. -/
structure Invocation where
  /-- What is asked for. -/
  request : Request
  /-- The path of the image. -/
  image : Text
  /-- The file that output goes to, empty for standard output. -/
  output : Text
  /-- The configuration file, empty to look for one. -/
  config : Text

/-- A command line that asks for something. -/
inductive Line where
  /-- Help. -/
  | help
  /-- Work. -/
  | run (i : Invocation)

/-- Why a command line asks for nothing. -/
inductive LineFault where
  /-- No command has this name. -/
  | unknownCommand (name : Text)
  /-- Its flags are wrong. -/
  | flags (f : FlagFault)
  /-- It has more or fewer arguments than its command takes. -/
  | arity (expected given : Nat)

/-- The name of the program. -/
def programName : Text := "clidump"

/-- What a fault says on standard error. -/
def LineFault.report : LineFault → Text
  | .unknownCommand name =>
    let similar := suggestions name
    let hint : Text :=
      if similar.isEmpty then Text.empty
      else "\n\nDid you mean this?\n" ++ Text.concat (similar.map fun s => ("\t" ++ s ++ "\n" : String))
    "Error: unknown command " ++ name.quoted ++ " for " ++ programName.quoted ++ hint ++ "\n"
      ++ "Run '" ++ programName ++ " --help' for usage.\n"
  | .flags f => "Error: " ++ f.message ++ "\n"
  | .arity expected given => (s!"Error: accepts {expected} arg(s), received {given}\n" : String)

/-- Understands the words after the name of a command. -/
def Spec.line (s : Spec) (words : List Text) : Except LineFault Line :=
  match parseFlags (helpFlag :: s.flags ++ sharedFlags) words with
  | .error f => .error (.flags f)
  | .ok p =>
    if p.switch "help" then .ok .help
    else if p.args.length ≠ s.arity then .error (.arity s.arity p.args.length)
    else .ok (.run {
      request := s.request p (p.args.drop 1)
      image := p.args.headD Text.empty
      output := p.text "output"
      config := p.text "config" })

/-- Understands a command line that names no command. -/
def bareLine (words : List Text) : Except LineFault Line :=
  match parseFlags (helpFlag :: sharedFlags) words with
  | .error f => .error (.flags f)
  | .ok _ => .ok .help

/-- Understands a command line. -/
def Line.parse (words : List Text) : Except LineFault Line :=
  match bareWords words with
  | [] => bareLine words
  | name :: _ =>
    match specs.find? fun s => Text.ofString s.name = name with
    | some s => s.line (withoutFirst name words)
    | none =>
      if selfNames.any fun s => Text.ofString s = name then .ok .help
      else .error (.unknownCommand name)

/-! ## Tokens as arguments -/

/-- The token that a word spells: a hexadecimal number of 32 bits after its mark. -/
def tokenWord? (word : Text) : Option Token :=
  match word.toList with
  | 0x30 :: mark :: ds =>
    if mark = 0x78 || mark = 0x58 then
      match Literal.natural 16 0x100000000 ds with
      | .ok n => some (Token.ofNat n)
      | .error _ => none
    else none
  | _ => none

end ManagedImage.Command
