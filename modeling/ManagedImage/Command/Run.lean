/-
Running a command line on a tree of files.

First the configuration is read, then the output file is made, and only then the
image is opened; so a command that fails later has emptied its output file, and
an image that is its own output file is empty when it is opened. What a command
prints before it fails is kept.
-/
import ManagedImage.Command.Listing
import ManagedImage.Command.Dump
import ManagedImage.Settings.Config
import ManagedImage.Storage.DatabaseName
import ManagedImage.Storage.Images

set_option autoImplicit false

namespace ManagedImage.Command

open Storage (FileTree Place Cache Access)
open Settings (Config)
open Report (Database)

/-- What running a command line leaves. -/
structure Outcome where
  /-- Whether it succeeded. -/
  ok : Bool
  /-- Standard output. -/
  stdout : Text
  /-- Standard error. -/
  stderr : Text
  /-- The files afterwards. -/
  tree : FileTree

/-- What is said about a fault. -/
def faultReport (f : Fault) : Text := "Error: " ++ f.message ++ "\n"

/-- The configuration of an invocation. -/
def Invocation.configuration (i : Invocation) (t : FileTree) : Except Fault Config :=
  let found := if i.config.isEmpty then Config.find t "." else Config.load t i.config
  match found with
  | .ok c => .ok c
  | .error e => .error (.context "failed to load config: " e.fault)

/-- Where output goes: the place of a file, or standard output. -/
def Invocation.target (i : Invocation) (t : FileTree) : Except Fault (Option Place) :=
  if i.output.isEmpty then .ok none
  else
    match t.creatable i.output with
    | .ok p => .ok (some p)
    | .error f => .error (.context "failed to create output file: " f)

/-- The tree with what was written to an output file. -/
def written (t : FileTree) (target : Option Place) (text : Text) : FileTree :=
  match target with
  | some p => t.put p (.file text.bytes)
  | none => t

/-- Opens the image of an invocation. -/
def Invocation.open (i : Invocation) (t : FileTree) (config : Config) : Except Fault Image :=
  let cache : Cache Text Image := .ofCapacity config.capacity
  match (cache.fetch t.imageKey t.loadImage i.image).answer with
  | .ok img => .ok img
  | .error f => .error (.context "failed to open image: " f)

/-! ## Databases -/

/-- A database that cannot be opened. -/
def cannotOpen : Fault := .plain "export: begin: unable to open database file: out of memory (14)"

/-- A file that holds something else. -/
def notDatabase : Fault := .plain "export: begin: file is not a database (26)"

/-- A database that may only be read. -/
def readOnlyDatabase : Fault := .plain "export: begin: attempt to write a readonly database (8)"

/-- The place of the database in a file and what it holds. -/
def databaseAt (t : FileTree) (path : Text) (access : Access) : Except Fault (Place × Database) :=
  match t.databasePlace? path with
  | none => .error cannotOpen
  | some p =>
    match t.node? p, access with
    | none, .create => .ok (p, .empty)
    | none, _ => .error cannotOpen
    | some _, .readOnly => .error readOnlyDatabase
    | some _, _ =>
      match t.databaseAt? p with
      | some db => .ok (p, db)
      | none => .error notDatabase

/-- Stores an image in the database of a name. A fault leaves the database as it was, but a new
one has been made. -/
def storeIn (t : FileTree) (img : Image) (name : Text) : Except Fault Unit × FileTree :=
  match Storage.DatabaseName.target? name with
  | none => (.error cannotOpen, t)
  | some .transient => ((Database.empty.store img).map fun _ => (), t)
  | some (.file path access) =>
    match databaseAt t path access with
    | .error f => (.error f, t)
    | .ok (p, db) =>
      match db.store img with
      | .ok db => (.ok (), t.put p (.database db))
      | .error f => (.error f, t.put p (.database db))

/-- Stores the image of an invocation and says so. -/
def Invocation.store (i : Invocation) (t : FileTree) (img : Image) (name : Text) :
    Print Unit × FileTree :=
  match storeIn t img name with
  | (.ok _, t) => (Print.line ("Exported " ++ i.image ++ " to " ++ name), t)
  | (.error f, t) => (throw (.context "failed to export: " f), t)

/-! ## Requests -/

/-- The work of a request on an opened image: what it prints, and the files afterwards. -/
def Invocation.work (i : Invocation) (t : FileTree) (config : Config) (img : Image) :
    Print Unit × FileTree :=
  match i.request with
  | .info => (Print.facts i.image img, t)
  | .tables name limit => (Print.tablesOf img name limit, t)
  | .types filter members limit => (Print.types img filter members limit, t)
  | .code method normalize statements stack =>
    let style : ListingStyle :=
      ⟨normalize.getD config.normalize, statements.getD config.statements, stack⟩
    (Print.code img style method, t)
  | .lookup query => (Print.lookup img query, t)
  | .literals filter limit => (Print.literals img filter limit, t)
  | .dump format => (Print.dump img (if format.isEmpty then config.format else format), t)
  | .store name => i.store t img name

/-- The end of an invocation that printed a text. -/
def finish (t : FileTree) (target : Option Place) (printed : Text) (fault : Option Fault) :
    Outcome where
  ok := fault.isNone
  stdout := if target.isSome then Text.empty else printed
  stderr := (fault.map faultReport).getD Text.empty
  tree := written t target printed

/-- Runs an invocation. -/
def Invocation.run (i : Invocation) (t : FileTree) : Outcome :=
  match i.configuration t with
  | .error f => finish t none Text.empty (some f)
  | .ok config =>
    match i.target t with
    | .error f => finish t none Text.empty (some f)
    | .ok target =>
      let t := written t target Text.empty
      match i.open t config with
      | .error f => finish t target Text.empty (some f)
      | .ok img =>
        let (printing, t) := i.work t config img
        match printing Text.empty with
        | .ok _ printed => finish t target printed none
        | .error f printed => finish t target printed (some f)

/-- What the program says about itself. -/
def usage : Text :=
  "Usage:\n  clidump <command> <assembly> [flags]\n\nCommands:\n"
    ++ Text.concat (specs.map fun s => ("  " ++ s.name ++ "\n" : String))

/-- Runs a command line. -/
def run (t : FileTree) (words : List Text) : Outcome :=
  match Line.parse words with
  | .error f => ⟨false, Text.empty, f.report, t⟩
  | .ok .help => ⟨true, usage, Text.empty, t⟩
  | .ok (.run i) => i.run t

end ManagedImage.Command
