/-
The tree that the statements of a TOML file grow.

A table may be opened before it is given its own heading: a heading or a key
with several names opens all tables on the way. Such a table is only implied,
and being given a heading or a value makes it settled; what is settled cannot be
given again. A table that was implied stays where it is given, except that an
array takes its place. Names that lead through an array of tables mean its last
table.

An array of tables that is written between brackets grows in the same place, so
that dotted names within its members find their way; once its bracket closes,
the written array takes that place.
-/
import ManagedImage.Settings.Toml.Syntax

set_option autoImplicit false

namespace ManagedImage.Settings.Toml

/-- A node of the tree. -/
inductive Node where
  /-- A value that holds no other. -/
  | scalar (s : Scalar)
  /-- An array that was assigned. -/
  | array
  /-- An array of tables, of which only the last can still grow. -/
  | tables (last : List (String × Node))
  /-- A table. -/
  | table (entries : List (String × Node))

/-- The entries of a table. -/
abbrev Entries := List (String × Node)

namespace Entries

/-- The entries with one put in or replaced. -/
def set (es : Entries) (name : String) (n : Node) : Entries :=
  if (es.lookup name).isSome then es.map fun e => if e.1 = name then (name, n) else e
  else es ++ [(name, n)]

/-- The table that names lead to. -/
def at? : Key → Entries → Option Entries
  | [], es => some es
  | name :: rest, es =>
    match es.lookup name with
    | some (.table sub) | some (.tables sub) => at? rest sub
    | _ => none

/-- Changes the table that names lead to, opening those on the way that are not there. -/
def modify (change : Entries → Option Entries) : Key → Entries → Option Entries
  | [], es => change es
  | name :: rest, es =>
    match es.lookup name with
    | some (.table sub) => (modify change rest sub).map fun sub => set es name (.table sub)
    | some (.tables last) => (modify change rest last).map fun last => set es name (.tables last)
    | some _ => none
    | none => (modify change rest []).map fun sub => set es name (.table sub)

/-- The beginnings of a key that lead to nothing yet. -/
def unopened (front : Key) : Key → Entries → List Key
  | [], _ => []
  | name :: rest, es =>
    let here := front ++ [name]
    match es.lookup name with
    | some (.table sub) | some (.tables sub) => unopened here rest sub
    | some _ => []
    | none => here :: unopened here rest []

/-- Adds a table to an array of tables. -/
def addTable (name : String) (es : Entries) : Option Entries :=
  match es.lookup name with
  | none | some (.tables _) => some (set es name (.tables []))
  | some _ => none

end Entries

/-- A tree while it grows. -/
structure Growth where
  /-- What there is so far. -/
  root : Entries
  /-- The tables that are only implied. -/
  implied : List Key
  /-- The keys whose latest value is an array. -/
  arrays : List Key
  /-- The table that names are relative to. -/
  context : Key

namespace Growth

/-- Nothing yet. -/
def start : Growth := ⟨[], [], [], []⟩

/-- Marks a table as implied. -/
def imply (g : Growth) (key : Key) : Growth := { g with implied := key :: g.implied }

/-- Marks a table as settled. -/
def settle (g : Growth) (key : Key) : Growth :=
  { g with implied := g.implied.filter (· ≠ key) }

/-- Notes whether the latest value of a name is an array. The empty name stands for the table it
is in. -/
def note (g : Growth) (name : String) (isArray : Bool) : Growth :=
  let key := if name.isEmpty then g.context else g.context ++ [name]
  let key := if key.isEmpty then [""] else key
  let rest := g.arrays.filter (· ≠ key)
  { g with arrays := if isArray then key :: rest else rest }

/-- Puts a node under a name of the current table. -/
def put (g : Growth) (name : String) (n : Node) : Option Growth := do
  let root ← Entries.modify (fun es => some (es.set name n)) g.context g.root
  return { g with root }

/-- Gives a name of the current table a node. A name that is taken can be given one only if it
stands for what is implied, which then is settled: it stays, unless the latest value of the name
is an array, for which it makes room. -/
def assign (g : Growth) (name : String) (n : Node) : Option Growth := do
  let key := g.context ++ [name]
  let table ← Entries.at? g.context g.root
  if (table.lookup name).isNone then g.put name n
  else if ¬ g.implied.contains key then none
  else if g.arrays.contains key then (g.settle key).put name n
  else return g.settle key

/-- Makes a table the current one, opening those on the way as implied ones. -/
def openWay (g : Growth) (way : Key) : Option Growth := do
  let implied := Entries.unopened [] way g.root
  let root ← Entries.modify some way g.root
  return { g with root, implied := implied ++ g.implied, context := way }

/-- Gives a key a table and makes it the current one. -/
def enterTable (g : Growth) (key : Key) : Option Growth := do
  let g ← g.openWay key.dropLast
  let g ← g.assign (key.getLast?.getD "") (.table [])
  return { g with context := key }

/-- Adds a table to the array of tables under a key and makes it the current one. -/
def enterArrayTable (g : Growth) (key : Key) : Option Growth := do
  let g ← g.openWay key.dropLast
  let root ← Entries.modify (Entries.addTable (key.getLast?.getD "")) g.context g.root
  return { g with root, context := key }

/-- Enters the tables that the first names of a key imply, one after the other. -/
def enterImplied (g : Growth) : Key → Option Growth
  | [] => some g
  | name :: rest => do
    let key := g.context ++ [name]
    let g ← (g.imply key).enterTable key
    g.enterImplied rest

/-- Whether a value is an array. -/
def isArray : Value → Bool
  | .array _ => true
  | _ => false

mutual

/-- Grows what a value needs and gives its node. `name` is the name it is for, in the current
table. -/
def ofValue (name : String) (inArray : Bool) : Value → Growth → Option (Node × Growth)
  | .scalar s, g => some (.scalar s, g)
  | .array items, g => (ofItems name items (g.note name true)).map fun g => (.array, g)
  | .inline entries, g => do
    let key := g.context ++ [name]
    let inner ← if inArray then (g.imply key).enterArrayTable key
      else (g.imply key).enterTable key
    let (written, inner) ← ofEntries key entries [] inner
    return (.table written, { inner with context := g.context })

/-- Grows what the members of an array need. -/
def ofItems (name : String) : List Value → Growth → Option Growth
  | [], g => some g
  | v :: rest, g => do
    let (_, g) ← ofValue name true v g
    ofItems name rest g

/-- Grows what the entries of a table between braces need, and gives the table as written. -/
def ofEntries (context : Key) : List (Key × Value) → Entries → Growth → Option (Entries × Growth)
  | [], written, g => some (written, g)
  | (key, v) :: rest, written, g => do
    let name := key.getLast?.getD ""
    let g ← g.enterImplied key.dropLast
    let (n, g) ← ofValue name false v g
    let g ← g.assign name n
    let written ← Entries.modify (fun es => some (es.set name n)) key.dropLast written
    ofEntries context rest written { g.note name (isArray v) with context }

end

/-- Grows what a statement says. -/
def ofStatement (g : Growth) : Statement → Option Growth
  | .table key => (g.enterTable key).map fun g => g.note "" false
  | .arrayTable key => (g.enterArrayTable key).map fun g => g.note "" false
  | .assign key v => do
    let name := key.getLast?.getD ""
    let inner ← g.enterImplied key.dropLast
    let (n, inner) ← ofValue name false v inner
    let inner ← inner.assign name n
    return { inner.note name (isArray v) with context := g.context }

end Growth

/-- The entries of a file, if it is one and its statements agree with each other. -/
def entries (data : List UInt8) : Option Entries := do
  let g ← (← parse data).foldlM Growth.ofStatement Growth.start
  return g.root

end ManagedImage.Settings.Toml
