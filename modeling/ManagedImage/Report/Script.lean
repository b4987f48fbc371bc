/-
A database as the script that makes it.

Every table is dropped, made and filled, in that order; so running the scripts
of two databases one after the other leaves what storing into one database
leaves: the later table of a name counts and the others stay. A text that is
plain is written between quotes, any other by the digits of its bytes.
-/
import ManagedImage.Report.Database

set_option autoImplicit false

namespace ManagedImage.Report

/-- What every script starts with. -/
def scriptMark : Text := "-- image database\n"

/-- Whether a byte can stand between quotes. -/
def isPlainByte (b : UInt8) : Bool := 0x20 ≤ b && b < 0x7F

/-- A text between quotes, each quote inside it written twice. -/
def quotedBy (quote : UInt8) (t : Text) : Text :=
  Text.ofList (quote :: t.toList.flatMap (fun b => if b = quote then [b, b] else [b]) ++ [quote])

/-- A name of a table or a column. -/
def scriptName (name : String) : Text := quotedBy 0x22 name

/-- A value. -/
def Cell.script : Cell → Text
  | .null => "NULL"
  | .number n => decimal n
  | .text t =>
    if t.toList.all isPlainByte then quotedBy 0x27 t
    else "CAST(X'" ++ Text.concat (t.toList.map fun b => hexPadUpper 2 b.toNat) ++ "' AS TEXT)"

/-- The statements that make a table. -/
def Relation.script (name : String) (r : Relation) : Text :=
  let table := scriptName name
  "DROP TABLE IF EXISTS " ++ table ++ ";\nCREATE TABLE " ++ table ++ " ("
    ++ Text.join ", " (r.columns.map scriptName) ++ ");\n"
    ++ Text.concat (r.rows.map fun row =>
      "INSERT INTO " ++ table ++ " VALUES (" ++ Text.join ", " (row.map Cell.script) ++ ");\n")

/-- The script of a database. -/
def Database.script (db : Database) : Text :=
  scriptMark ++ Text.concat (db.tables.map fun (name, r) => r.script name)

end ManagedImage.Report
