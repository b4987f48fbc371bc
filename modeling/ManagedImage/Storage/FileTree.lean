/-
A tree of files, as far as the program can see one.

Every place holds a file, a database, a directory, a link or nothing. Following
a path takes one name after the other: two dots go back from where the walk has
got to, a link is replaced by the path it holds, and a name that is no directory
can only be the last. The walk says where it ended or why it could not go on,
and each use of it words that in its own way.
-/
import ManagedImage.Storage.Path
import ManagedImage.Fault
import ManagedImage.Report.Database

set_option autoImplicit false

namespace ManagedImage.Storage

/-- What a place holds. -/
inductive Node where
  /-- A file with its bytes. -/
  | file (data : ByteArray)
  /-- A file that is a database. -/
  | database (db : Report.Database)
  /-- A directory. -/
  | directory
  /-- A link to the path it holds. -/
  | link (target : Text)

/-- Places with what they hold, and where paths start that do not start at the root. -/
structure FileTree where
  /-- The working directory. -/
  cwd : Place
  /-- What the places hold; the latest entry of a place counts. -/
  nodes : List (Place × Node)

/-- Why a path leads nowhere. -/
inductive WalkFault where
  /-- Nothing is at this place; `rest` names were left to follow. -/
  | missing (at_ : Place) (rest : List Text)
  /-- Names follow one that is no directory. -/
  | notDirectory
  /-- Too many links were followed. -/
  | tooManyLinks

namespace FileTree

/-- What is at a place. The root is a directory. -/
def node? (t : FileTree) (p : Place) : Option Node :=
  if p.isEmpty then some .directory else t.nodes.lookup p

/-- Puts something at a place. -/
def put (t : FileTree) (p : Place) (n : Node) : FileTree :=
  { t with nodes := (p, n) :: t.nodes.filter fun e => e.1 ≠ p }

/-- Takes away what is at a place. -/
def erase (t : FileTree) (p : Place) : FileTree :=
  { t with nodes := t.nodes.filter fun e => e.1 ≠ p }

/-- Puts a directory at a place that holds nothing. -/
def ensureDirectory (t : FileTree) (p : Place) : FileTree :=
  if (t.node? p).isSome then t else t.put p .directory

/-- The places on the way to a place, from the root on, without the place itself. -/
def ancestors (p : Place) : List Place := (List.range p.length).map p.take

/-- Puts something at a place, with all directories above it. -/
def plant (t : FileTree) (p : Place) (n : Node) : FileTree :=
  ((ancestors p).foldl ensureDirectory t).put p n

/-- A tree with nothing but a working directory. -/
def empty (cwd : Place) : FileTree := plant ⟨cwd, []⟩ cwd .directory

/-! ## Following paths -/

/-- Most links that one walk follows. -/
def maxLinks : Nat := 255

/-- Follows names from a place. -/
def walk (t : FileTree) (links : Nat) (at_ : Place) (rest : List Text) : Except WalkFault Place :=
  match rest with
  | [] => .ok at_
  | name :: rest =>
    if name = Path.here ∨ name = Path.up then t.walk links (Path.step at_ name) rest
    else
      match t.node? (at_ ++ [name]) with
      | none => .error (.missing (at_ ++ [name]) rest)
      | some .directory => t.walk links (at_ ++ [name]) rest
      | some (.file _) | some (.database _) =>
        if rest.isEmpty then .ok (at_ ++ [name]) else .error .notDirectory
      | some (.link target) =>
        match links with
        | 0 => .error .tooManyLinks
        -- The names of a link are followed in its stead.
        | links + 1 => t.walk links (Path.origin at_ target) (Path.names target ++ rest)
termination_by (links, rest.length)

/-- The place a written path leads to. -/
def follow (t : FileTree) (path : Text) : Except WalkFault Place :=
  if path.isEmpty then .error (.missing t.cwd [path])
  else t.walk maxLinks (Path.origin t.cwd path) (Path.names path)

/-- Follows names from a place, also those that lead to nothing, which two dots may take back.
Only what is no directory holds no further name. -/
def reach (t : FileTree) (links : Nat) (at_ : Place) (rest : List Text) : Except WalkFault Place :=
  match rest with
  | [] => .ok at_
  | name :: rest =>
    if name = Path.here ∨ name = Path.up then t.reach links (Path.step at_ name) rest
    else
      match t.node? at_, t.node? (at_ ++ [name]) with
      | some (.file _), _ | some (.database _), _ => .error .notDirectory
      | _, some (.link target) =>
        match links with
        | 0 => .error .tooManyLinks
        | links + 1 => t.reach links (Path.origin at_ target) (Path.names target ++ rest)
      | _, _ => t.reach links (at_ ++ [name]) rest
termination_by (links, rest.length)

/-- The place behind a path after it was made absolute by its names, free of links. -/
def resolve (t : FileTree) (path : Text) : Except WalkFault Place :=
  t.walk maxLinks [] (Path.absolute t.cwd path)

/-! ## Wording -/

/-- Nothing is there. -/
def noSuchFile : Text := "no such file or directory"

/-- The words of a walk that a path was opened by. -/
def openFault (path : Text) : WalkFault → Fault
  | .missing _ _ => .notExist ("open " ++ path ++ ": " ++ noSuchFile)
  | .notDirectory => .plain ("open " ++ path ++ ": not a directory")
  | .tooManyLinks => .plain ("open " ++ path ++ ": too many levels of symbolic links")

/-- The words of a walk that resolved links. -/
def resolveFault : WalkFault → Fault
  | .missing at_ _ => .notExist ("lstat " ++ Path.render at_ ++ ": " ++ noSuchFile)
  | .notDirectory => .plain "not a directory"
  | .tooManyLinks => .plain "EvalSymlinks: too many links"

/-! ## Reading and writing -/

/-- Whether a path leads somewhere. -/
def exists? (t : FileTree) (path : Text) : Bool := (t.follow path).toOption.isSome

/-- The bytes of a file. Those of a database are not modelled. -/
def read (t : FileTree) (path : Text) : Except Fault ByteArray :=
  match t.follow path with
  | .error w => .error (openFault path w)
  | .ok p =>
    match t.node? p with
    | some (.file data) => .ok data
    | some .directory => .error (.plain ("read " ++ path ++ ": is a directory"))
    | _ => .ok ByteArray.empty

/-- The place where a file can be made or overwritten under a path. -/
def creatable (t : FileTree) (path : Text) : Except Fault Place :=
  match t.follow path with
  | .ok p =>
    match t.node? p with
    | some .directory => .error (.plain ("open " ++ path ++ ": is a directory"))
    | _ => .ok p
  | .error (.missing p []) => .ok p
  | .error w => .error (openFault path w)

/-- Makes or overwrites a file. -/
def create (t : FileTree) (path : Text) (data : ByteArray) : Except Fault FileTree :=
  (t.creatable path).map fun p => t.put p (.file data)

/-- The database at a place; an empty file is an empty database. -/
def databaseAt? (t : FileTree) (p : Place) : Option Report.Database :=
  match t.node? p with
  | some (.database db) => some db
  | some (.file data) => if data.isEmpty then some .empty else none
  | _ => none

/-- The database under a path. -/
def database? (t : FileTree) (path : Text) : Option Report.Database :=
  (t.follow path).toOption.bind t.databaseAt?

/-- The place of the file of a database under a path. A new file needs a directory to be in. -/
def databasePlace? (t : FileTree) (path : Text) : Option Place := do
  let p ← (t.reach maxLinks (Path.origin t.cwd path) (Path.names path)).toOption
  match t.node? p, t.node? (Path.parent p) with
  | some .directory, _ => none
  | some _, _ => some p
  | none, some .directory => some p
  | none, _ => none

/-- Makes a link. A name that is taken stays as it is. -/
def link (t : FileTree) (target name : Text) : FileTree :=
  let p := Path.absolute t.cwd name
  if (t.node? p).isSome then t else t.put p (.link target)

/-- Takes away what a path names, a link rather than what is behind it. A directory goes only if
it is empty. -/
def remove (t : FileTree) (path : Text) : FileTree :=
  let p := Path.absolute t.cwd path
  if t.nodes.any fun e => p.isPrefixOf e.1 && e.1 ≠ p then t else t.erase p

end FileTree

end ManagedImage.Storage
