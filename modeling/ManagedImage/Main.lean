/-
The program.

A run sees only few places of the disk: the configuration files it may find, the
image, the output file and the database. They are read into a tree of files, the
command line is run on that tree, and what it prints and writes goes back to
where it belongs. A database is kept on the disk as the script that makes it, and
storing into it again appends to that script.
-/
import ManagedImage.Command.Run
import ManagedImage.Report.Script

set_option autoImplicit false

namespace ManagedImage.Disk

open Storage Command Settings

/-- A text as the disk takes a path. -/
def diskPath (t : Text) : String := String.ofList (t.runes.map Rune.toChar)

/-- The place a path leads to, free of links. -/
def realPlace? (path : Text) : IO (Option Place) := do
  try
    return some (Path.names (toString (← IO.FS.realPath (diskPath path))))
  catch _ => return none

/-- What is at a place that is free of links. -/
def survey (p : Place) : IO Node := do
  let path := Path.render p
  if (← realPlace? (path ++ "/.")).isSome then return .directory
  try
    let data ← IO.FS.readBinFile (diskPath path)
    let isScript := Report.scriptMark.toList.isPrefixOf data.data.toList
    return if isScript then .database .empty else .file data
  catch _ => return .file ByteArray.empty

/-- The tree with everything that is met on the way along some names. -/
def explore (t : FileTree) (at_ : Place) : List Text → IO FileTree
  | [] => return t
  | name :: rest => do
    if name = Path.here ∨ name = Path.up then explore t (Path.step at_ name) rest
    else
      let p := at_ ++ [name]
      match ← realPlace? (Path.render p) with
      | none => return t
      | some q =>
        let t := t.plant q (← survey q)
        let t := if q = p then t else t.put p (.link (Path.render q))
        explore t q rest

/-- The tree with what a written path leads to, by links or by its names alone. -/
def explorePath (t : FileTree) (path : Text) : IO FileTree := do
  let t ← explore t (Path.origin t.cwd path) (Path.names path)
  explore t [] (Path.absolute t.cwd path)

/-- The path of the database that an invocation stores into. -/
def database? (i : Invocation) : Option Text :=
  match i.request with
  | .store name =>
    match DatabaseName.target? name with
    | some (.file path _) => some path
    | _ => none
  | _ => none

/-- The paths that an invocation touches from a working directory. -/
def touched (cwd : Place) (i : Invocation) : List Text :=
  let configs := if i.config.isEmpty
    then (Config.searchPlaces cwd).map fun p => Path.render (p ++ [Config.fileName])
    else [i.config]
  configs ++ [i.image, i.output] ++ (database? i).toList

/-- The files that an invocation can see. -/
def gather (i : Invocation) : IO FileTree := do
  let cwd := Path.names (toString (← IO.currentDir))
  let paths := (touched cwd i).filter fun p => !p.isEmpty
  paths.foldlM explorePath (FileTree.empty cwd)

/-- Puts what an invocation wrote on the disk. -/
def settle (i : Invocation) (t : FileTree) : IO Unit := do
  if let some (.file data) := (t.follow i.output).toOption.bind t.node? then
    IO.FS.writeBinFile (diskPath i.output) data
  if let some p := (database? i).bind t.databasePlace? then
    if let some db := t.databaseAt? p then
      let h ← IO.FS.Handle.mk (diskPath (Path.render p)) .append
      h.write db.script.bytes

/-- Runs a command line on the disk. -/
def run (words : List Text) : IO UInt32 := do
  let out ← match Line.parse words with
    | .ok (.run i) => do
      let out := i.run (← gather i)
      settle i out.tree
      pure out
    | _ => pure (Command.run (FileTree.empty []) words)
  (← IO.getStdout).write out.stdout.bytes
  (← IO.getStderr).write out.stderr.bytes
  return if out.ok then 0 else 1

end ManagedImage.Disk

/-- Runs the words of the command line. -/
def main (args : List String) : IO UInt32 := ManagedImage.Disk.run (args.map .ofString)
