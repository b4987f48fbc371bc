/-
The configuration of the command line.

A file may set how output is shown, how many images are kept, how much is logged
and how code is listed. What it leaves out, or leaves empty, has a default. Keys
are matched without regard to case and unknown ones are passed over, but a known
key with a value of the wrong kind refuses the file.

Without being told which file to read, the program looks for one in the working
directory and then in each directory above it.
-/
import ManagedImage.Settings.Toml.Tree
import ManagedImage.Storage.FileTree
import ManagedImage.Text.Lower
import ManagedImage.Text.Quoted

set_option autoImplicit false

namespace ManagedImage.Settings

open Toml (Node Entries)

/-! ## Levels -/

/-- How grave a message has to be to be logged. -/
inductive Level where
  /-- Everything. -/
  | debug
  /-- What may be of interest. -/
  | info
  /-- What may be wrong. -/
  | warn
  /-- What is wrong. -/
  | error
  /-- What must not happen while developing. -/
  | dpanic
  /-- What must not happen. -/
  | panic
  /-- What ends the program. -/
  | fatal
deriving DecidableEq, Repr

namespace Level

/-- All levels. -/
def all : List Level := [debug, info, warn, error, dpanic, panic, fatal]

/-- The name of a level. -/
def name : Level → String
  | debug => "debug"
  | info => "info"
  | warn => "warn"
  | error => "error"
  | dpanic => "dpanic"
  | panic => "panic"
  | fatal => "fatal"

/-- The level of a name, in capital or small letters. -/
def ofName? (s : String) : Option Level :=
  let small := String.ofList (s.toList.map Lower.char)
  if small.isEmpty then some info
  else if small = "warning" then some warn
  else all.find? fun l => l.name = small

end Level

/-! ## Files -/

/-- What a file says, as it says it. -/
structure Draft where
  /-- The format of output. -/
  format : String := ""
  /-- Whether output may be coloured. -/
  color : Option Bool := none
  /-- How many images are kept. -/
  capacity : Int := 0
  /-- The level of messages that are logged. -/
  level : String := ""
  /-- Whether code is listed in its long forms. -/
  normalize : Bool := false
  /-- Whether statements are set apart in listed code. -/
  statements : Bool := false

/-- A letter folded: capital, small and long forms are one. -/
def foldLetter (c : Char) : Char :=
  if c.toNat = 0x17F then 's' else if c.toNat = 0x212A then 'k' else c.toLower

/-- Whether two names differ in case alone. -/
def sameName (a b : String) : Bool := a.toList.map foldLetter = b.toList.map foldLetter

/-- The text in a node. -/
def text? : Node → Option String
  | .scalar (.text s) => some s
  | _ => none

/-- The truth value in a node. -/
def bool? : Node → Option Bool
  | .scalar (.bool b) => some b
  | _ => none

/-- The whole number in a node. -/
def integer? : Node → Option Int
  | .scalar (.integer n) => some n
  | _ => none

/-- What a key of a section does to a draft; `none` for a value of the wrong kind. -/
abbrev Setter := Node → Draft → Option Draft

/-- The keys of each section. -/
def sections : List (String × List (String × Setter)) := [
  ("output", [
    ("format", fun n d => (text? n).map fun v => { d with format := v }),
    ("color", fun n d => (bool? n).map fun v => { d with color := some v })]),
  ("cache", [
    ("capacity", fun n d => (integer? n).map fun v => { d with capacity := v })]),
  ("log", [
    ("level", fun n d => (text? n).map fun v => { d with level := v })]),
  ("il", [
    ("normalize", fun n d => (bool? n).map fun v => { d with normalize := v }),
    ("statements", fun n d => (bool? n).map fun v => { d with statements := v })])]

/-- What is listed under a name. -/
def listed? {α : Type} (table : List (String × α)) (name : String) : Option α :=
  (table.find? fun e => sameName e.1 name).map (·.2)

/-- The draft with one entry of a section taken in. -/
def takeKey (setters : List (String × Setter)) (d : Draft) (entry : String × Node) : Option Draft :=
  match listed? setters entry.1 with
  | some setter => setter entry.2 d
  | none => some d

/-- The draft with a section taken in. -/
def takeSection (d : Draft) (entry : String × Node) : Option Draft :=
  match listed? sections entry.1, entry.2 with
  | some setters, .table es => es.foldlM (takeKey setters) d
  | some _, _ => none
  | none, _ => some d

/-- What the bytes of a file say. -/
def Draft.ofBytes? (data : List UInt8) : Option Draft := do
  (← Toml.entries data).foldlM takeSection {}

/-! ## Configurations -/

/-- A configuration, complete and checked. -/
structure Config where
  /-- The format of output. -/
  format : Text
  /-- Whether output may be coloured. -/
  color : Bool
  /-- How many images are kept. -/
  capacity : Int
  /-- The level of messages that are logged, as it was written. -/
  levelText : Text
  /-- The level of messages that are logged. -/
  level : Level
  /-- Whether code is listed in its long forms. -/
  normalize : Bool
  /-- Whether statements are set apart in listed code. -/
  statements : Bool
  /-- The file it was read from, empty for the defaults. -/
  path : Text

/-- Why there is no configuration. -/
inductive ConfigFault where
  /-- The file cannot be read. -/
  | unreadable (path : Text) (cause : Fault)
  /-- The file does not follow its format. -/
  | malformed (path : Text)
  /-- A value is none of those that are known. -/
  | invalid (path detail : Text)

/-- How it is said. -/
def ConfigFault.fault : ConfigFault → Fault
  | .unreadable path cause => .context ("cannot read " ++ path ++ ": ") cause
  | .malformed path => .plain ("parse error in " ++ path)
  | .invalid path detail => .plain (path ++ ": " ++ detail)

namespace Config

/-- The formats of output. -/
def formats : List String := ["text", "json", "cbor"]

/-- How many images are kept unless said otherwise. -/
def defaultCapacity : Int := 8

/-- A text, or another if it is empty. -/
def orElse (s fallback : String) : String := if s.isEmpty then fallback else s

/-- The configuration of a draft, or what is wrong with it. The format is looked at before the
level. -/
def ofDraft (path : Text) (d : Draft) : Except Text Config :=
  let format := orElse d.format "text"
  let level := orElse d.level "warn"
  let quoted (s : String) : Text := Text.quoted s
  if !formats.contains format then .error ("unknown output format " ++ quoted format)
  else
    match Level.ofName? level with
    | none =>
      .error ("invalid log level " ++ quoted level ++ ": unrecognized level: " ++ quoted level)
    | some l => .ok {
        format
        color := d.color.getD true
        capacity := if d.capacity ≤ 0 then defaultCapacity else d.capacity
        levelText := level
        level := l
        normalize := d.normalize
        statements := d.statements
        path }

/-- The configuration when there is no file. -/
def default : Config where
  format := "text"
  color := true
  capacity := defaultCapacity
  levelText := "warn"
  level := .warn
  normalize := false
  statements := false
  path := Text.empty

open Storage (FileTree Place Path.absolute Path.render Path.parent)

/-- Reads the configuration file under a path. -/
def load (t : FileTree) (path : Text) : Except ConfigFault Config :=
  match t.read path with
  | .error f => .error (.unreadable path f)
  | .ok data =>
    match Draft.ofBytes? data.data.toList with
    | none => .error (.malformed path)
    | some d =>
      match ofDraft path d with
      | .ok c => .ok c
      | .error detail => .error (.invalid path detail)

/-- The name of the file that is looked for. -/
def fileName : Text := "clidump.toml"

/-- The directories to look in: the given one and all above it, nearest first. -/
def searchPlaces (from_ : Place) : List Place :=
  ((List.range (from_.length + 1)).map from_.take).reverse

/-- Looks for a configuration file from a directory upwards and reads the first one. -/
def find (t : FileTree) (directory : Text) : Except ConfigFault Config :=
  let candidates := (searchPlaces (Path.absolute t.cwd directory)).map fun p =>
    Path.render (p ++ [fileName])
  match candidates.find? t.exists? with
  | some path => load t path
  | none => .ok default

end Config

end ManagedImage.Settings
