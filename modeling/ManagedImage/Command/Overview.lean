/-
Overviews of an image: its general facts, its tables, its types and its string
literals.

A list can be filtered and limited. A limit that is reached is said so, and the
total counts what was shown. A name that cannot be decoded does not end a list;
the fault stands in its place.
-/
import ManagedImage.Command.Print
import ManagedImage.Signature.Lookup
import ManagedImage.Text.Quoted

set_option autoImplicit false

namespace ManagedImage.Command

/-! ## Facts -/

/-- General facts about an image that was opened under a path. -/
def Print.facts (path : Text) (img : Image) : Print Unit := do
  heading "Image"
  field "File" path
  field "Assembly" (textOr (fun f => "(none: " ++ f.message ++ ")")
    (img.assemblyName.map AssemblyName.render))
  field "Format" (if img.file.is64 then ("PE32+" : Text) else "PE32")
  let c := img.file.runtime
  field "Runtime" (s!"{c.major}.{c.minor}" : String)
  field "CLI Flags" (hex8 c.flags)
  let entry := img.entryPoint
  unless entry.isNil do
    field "Entry Point" (entry.render ++ textOr (fun _ => Text.empty)
      ((img.fullMemberName entry).map fun name => " " ++ name))
  blank
  heading "Metadata"
  field "Version" img.version
  field "Table Stream" (s!"{img.head.major}.{img.head.minor}" : String)
  field "Compressed" (boolWord img.compressed)
  field "Heap Sizes" ("0x" ++ hexPadUpper 2 img.head.heapSizes : String)
  count "#Strings Index" img.strings.width
  count "#GUID Index" img.guids.width
  count "#Blob Index" img.blobs.width
  blank
  heading "Streams"
  line (Text.padRight 12 "NAME" ++ " " ++ Text.padRight 10 "OFFSET" ++ " SIZE")
  rule 36
  for h in img.streams.headers do
    line (h.name.padRight 12 ++ " " ++ hex8 h.offset ++ (" " ++ toString h.size : String))
  blank
  count "Tables Present" img.presentTables.length

/-! ## Tables -/

/-- A value as its column means it: a reference is shown as a token, anything else as a number. -/
def columnText (kind : ColumnKind) (v : Nat) : Text :=
  match kind with
  | .table t => if v = 0 then "-" else (Token.make t v).render
  | .coded k =>
    match k.decode v with
    | .error _ => ("bad:0x" ++ hexUpper v : String)
    | .ok tok => if tok.isNil then "-" else tok.render
  | _ => ("0x" ++ hexUpper v : String)

/-- A cell of a table, wide enough to be aligned. -/
def aligned (t : Text) : Text := t.padRight 12

/-- One row of a table. -/
def rowText (t : Table) (row : Nat) : Text :=
  let cells := (t.id.columns.zip (t.cells row)).map fun (c, v) => aligned (columnText c.kind v)
  hex8 (Token.make t.id row).toNat ++ "   " ++ Text.join " " cells

/-- The rows of a table, at most `limit` of them if it is positive. -/
def Print.rows (t : Table) (limit : Int) : Print Unit := do
  let names := t.id.columns.map fun c => aligned c.name
  line (aligned "TOKEN" ++ " " ++ Text.join " " names)
  rule (13 + 13 * names.length)
  let shown := if 0 < limit then min limit.toNat t.rows else t.rows
  for row in t.rowNumbers.take shown do
    line (rowText t row)
  if shown < t.rows then line (s!"... ({t.rows - shown} more rows)" : String)

/-- The tables that have rows. -/
def Print.tables (img : Image) : Print Unit := do
  let columns (id name rows size : Text) (sorted : Text) : Text :=
    id.padRight 4 ++ " " ++ name.padRight 24 ++ " " ++ rows.padRight 8 ++ " " ++ size.padRight 8
      ++ " " ++ sorted
  line (columns "ID" "TABLE" "ROWS" "ROWSIZE" "SORTED")
  rule 60
  for t in img.presentTables do
    line (columns ("0x" ++ hexPadUpper 2 t.id.code : String) t.id.name (toString t.rows : String)
      (toString t.layout.rowSize : String) (boolWord t.sorted))

/-- The table of a name with its rows, or all tables if no name is given. -/
def Print.tablesOf (img : Image) (name : Text) (limit : Int) : Print Unit :=
  if name.isEmpty then tables img
  else
    match TableId.ofName? name with
    | some t => rows (img.table t) limit
    | none => throw (.plain ("unknown table: " ++ name))

/-! ## Lists -/

/-- The members of a list whose name contains the filter, and whether a limit cut it short. A
limit that is not positive is none. -/
def selected {α : Type} (name : α → Text) (filter : Text) (limit : Int) (xs : List α) :
    List α × Bool :=
  let found := if filter.isEmpty then xs else xs.filter fun x => (name x).contains filter
  if 0 < limit then (found.take limit.toNat, limit.toNat < found.length) else (found, false)

/-- The end of a list. -/
def Print.total (shown : Nat) (cut : Bool) (what : String) : Print Unit := do
  if cut then line "... (limit reached)"
  blank
  line (s!"Total: {shown} {what}" : String)

/-! ## Types -/

/-- The name of a type definition, or why it has none. -/
def typeTitle (img : Image) (row : Nat) : Text :=
  textOr (fun f => "<" ++ f.message ++ ">") (img.typeName (Token.make .typeDef row))

/-- The base type of a type definition, with a colon before it; nothing if it has none. -/
def baseText (img : Image) (row : Nat) : Text :=
  match CodedKind.typeDefOrRef.decode ((img.table .typeDef).cell row 3) with
  | .error _ => Text.empty
  | .ok base =>
    if base.isNil then Text.empty
    else textOr (fun _ => Text.empty) ((img.typeName base).map fun name => " : " ++ name)

/-- A method with its signature, or why it has none. -/
def methodTitle (img : Image) (tok : Token) (name : Text) : Text :=
  match img.methodSig tok with
  | .ok sig => sig.render img.nameOf name
  | .error f => name ++ " <" ++ f.message ++ ">"

/-- The fields and methods of a type. -/
def Print.members (img : Image) (row : Nat) : Print Unit := do
  let name (tok : Token) := textOr (fun _ => Text.empty) (img.memberName tok)
  for tok in (← require (img.fieldRange row)).tokens do
    let type := textOr (fun _ => "?") ((img.fieldType tok).map img.typeText)
    line ("    " ++ tok.render ++ " field " ++ type ++ " " ++ name tok)
  for tok in (← require (img.methodRange row)).tokens do
    line ("    " ++ tok.render ++ " method " ++ methodTitle img tok (name tok))

/-- The types of an image. -/
def Print.types (img : Image) (filter : Text) (withMembers : Bool) (limit : Int) : Print Unit := do
  line (aligned "TOKEN" ++ " " ++ Text.padRight 10 "FLAGS" ++ " NAME")
  rule 80
  let (shown, cut) := selected (typeTitle img) filter limit (img.table .typeDef).rowNumbers
  for row in shown do
    let flags := (img.table .typeDef).cell row 0
    line (hex8 (Token.make .typeDef row).toNat ++ "   " ++ hex8 flags ++ " " ++ typeTitle img row
      ++ baseText img row)
    if withMembers then members img (Token.make .typeDef row).row
  total shown.length cut "types"

/-! ## Literals -/

/-- The string literals of an image, each with the token that loads it. -/
def Print.literals (img : Image) (filter : Text) (limit : Int) : Print Unit := do
  line (aligned "TOKEN" ++ " VALUE")
  rule 60
  let (shown, cut) := selected (·.2) filter limit img.literals.entries
  for (at_, value) in shown do
    line (hex8 (Token.literalNumber * Token.rowSpan ||| at_) ++ "   " ++ value.quoted)
  total shown.length cut "strings"

end ManagedImage.Command
