/-
An image as a database.

A database holds named tables of cells. Storing an image puts in one table per
metadata table, with the raw column values of every row, and four tables with
what they mean: the summary's headline facts, the types, the methods and the
string literals. A table of the same name is replaced as a whole and all other
tables stay, so several images can be stored one after the other. Storing is all
or nothing: a fault leaves the database as it was.
-/
import ManagedImage.Report.Summary

set_option autoImplicit false

namespace ManagedImage.Report

/-- A value in a database. -/
inductive Cell where
  /-- No value. -/
  | null
  /-- A whole number. -/
  | number (n : Int)
  /-- A text. -/
  | text (t : Text)
deriving DecidableEq

/-- A table of a database. -/
structure Relation where
  /-- The names of the columns. -/
  columns : List String
  /-- The rows in the order they were put in. -/
  rows : List (List Cell)
deriving DecidableEq

/-- Named tables. -/
structure Database where
  /-- The tables by name; no name occurs twice. -/
  tables : List (String × Relation)

namespace Database

/-- A database without tables. -/
def empty : Database := ⟨[]⟩

/-- The table of a name. -/
def get? (db : Database) (name : String) : Option Relation := db.tables.lookup name

/-- Puts a table in, in place of one of the same name. -/
def put (db : Database) (entry : String × Relation) : Database :=
  ⟨db.tables.filter (fun e => e.1 != entry.1) ++ [entry]⟩

end Database

/-! ## The tables of an image -/

/-- A natural number in a cell. -/
def Cell.nat (n : Nat) : Cell := .number n

/-- A number in a cell, zero being no value. -/
def Cell.unlessZero (n : Int) : Cell := if n = 0 then .null else .number n

/-- A metadata table with its raw values. -/
def rawRelation (t : Table) : String × Relation :=
  (t.id.name,
    { columns := "row" :: t.id.columns.map (·.name)
      rows := t.rowNumbers.map fun row => Cell.nat row :: (t.cells row).map Cell.nat })

/-- The headline facts. -/
def factRelation (s : Summary) : String × Relation :=
  let fact (key : String) (value : Text) : List Cell := [.text key, .text value]
  ("meta",
    { columns := ["key", "value"]
      rows := [
        fact "assembly" s.assembly,
        fact "metadata_version" s.version,
        fact "table_stream" s.tableStream,
        fact "entry_point" s.entryPoint,
        fact "pe32_plus" (boolWord s.is64)] })

/-- The row of a type. -/
def TypeEntry.cells (t : TypeEntry) : List Cell :=
  [.nat t.token.toNat, .text t.name, .text t.base, .number t.fields.toInt, .nat t.methods.length]

/-- The row of a method of a type. -/
def MethodEntry.cells (owner : TypeEntry) (m : MethodEntry) : List Cell :=
  [.nat m.token.toNat, .nat owner.token.toNat, .text m.name, .text m.signature,
    .unlessZero m.rva.toNat, .unlessZero m.codeSize.toInt, .number m.maxStack.toInt,
    .number m.clauses.toInt]

/-- The types. -/
def typeRelation (s : Summary) : String × Relation :=
  ("types",
    { columns := ["token", "name", "extends", "fields", "methods"]
      rows := (s.types.getD []).map TypeEntry.cells })

/-- The methods of all types. -/
def methodRelation (s : Summary) : String × Relation :=
  ("methods",
    { columns :=
        ["token", "type_token", "name", "signature", "rva", "code_size", "max_stack", "clauses"]
      rows := (s.types.getD []).flatMap fun t => t.methods.map (MethodEntry.cells t) })

/-- The string literals by their place in the heap. -/
def literalRelation (img : Image) : String × Relation :=
  ("user_strings",
    { columns := ["offset", "value"]
      rows := img.literals.entries.map fun (at_, value) => [.nat at_, .text value] })

/-- All tables of an image, in the order they are stored. -/
def relations (img : Image) (s : Summary) : List (String × Relation) :=
  img.presentTables.map rawRelation
    ++ [factRelation s, typeRelation s, methodRelation s, literalRelation img]

/-- Stores an image. -/
def Database.store (db : Database) (img : Image) : Except Fault Database := do
  let s ← Summary.ofImage img
  return (relations img s).foldl Database.put db

end ManagedImage.Report
