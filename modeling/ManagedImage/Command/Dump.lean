/-
A summary of an image, printed for people.
-/
import ManagedImage.Command.Print
import ManagedImage.Report.Json
import ManagedImage.Report.Cbor

set_option autoImplicit false

namespace ManagedImage.Command

open Report (Summary TypeEntry MethodEntry TableEntry)

/-- What is known of the body of a method. -/
def bodyNote (m : MethodEntry) : String :=
  if m.rva = 0 then "no body"
  else
    "rva 0x" ++ hexUpper m.rva.toNat ++ ", " ++ decimal m.codeSize.toInt ++ " bytes, maxstack "
      ++ decimal m.maxStack.toInt
      ++ (if 0 < m.clauses then ", " ++ decimal m.clauses.toInt ++ " handlers" else "")

/-- A method. -/
def methodLine (m : MethodEntry) : Text :=
  "    " ++ hex8 m.token.toNat ++ " " ++ m.name ++ " " ++ m.signature
    ++ (" (" ++ bodyNote m ++ ")" : String)

/-- A type. -/
def typeLine (t : TypeEntry) : Text :=
  hex8 t.token.toNat ++ " " ++ t.name
    ++ (if t.base.isEmpty then Text.empty else " : " ++ t.base)

/-- A table. -/
def tableLine (t : TableEntry) : Text :=
  "  " ++ t.name.padRight 24 ++ (" " ++ toString t.rows.toNat : String)
    ++ (if t.sorted then (" (sorted)" : Text) else Text.empty)

namespace Print

/-- A summary for people. -/
def summary (s : Summary) : Print Unit := do
  heading "Image"
  field "File" s.path
  field "Assembly" s.assembly
  field "Metadata" s.version
  field "Table Stream" s.tableStream
  field "PE32+" (boolWord s.is64)
  unless s.entryPoint.isEmpty do field "Entry Point" s.entryPoint
  field "User Strings" (decimal s.literals.toInt)
  blank
  heading "Tables"
  for t in s.tables.getD [] do
    line (tableLine t)
  blank
  heading "Types"
  for t in s.types.getD [] do
    line (typeLine t)
    for m in t.methods do
      line (methodLine m)

/-- A summary in a format. -/
def dump (img : Image) (format : Text) : Print Unit := do
  let s ← require (Summary.ofImage img)
  if format = "json" then text s.json
  else if format = "cbor" then text (Text.ofList s.cbor)
  else if format = "text" then summary s
  else throw (.plain ("unknown format: " ++ format))

end Print

end ManagedImage.Command
