/-
Assembling an image.

A builder collects heap entries, rows and method bodies; `Builder.bytes` lays
them out as a one-section executable with the five standard streams. Strings
and blobs are stored once each. Rows asked for as padding come after all rows
given cell by cell and are all zero; they exist to push row counts over the
thresholds at which columns widen. Padding may also be negative, and then takes
rows away from the end.
-/
import ManagedImage.Assemble.Body
import ManagedImage.Assemble.Coded
import ManagedImage.Assemble.Schema
import ManagedImage.Bytes.Compressed
import ManagedImage.Text.Units

set_option autoImplicit false

namespace ManagedImage.Assemble

/-- The rows collected for one table. -/
structure TableRows where
  /-- The rows given cell by cell, in order. -/
  explicit : Array (List Nat)
  /-- The number of zero rows after them; a negative one takes rows away. -/
  padding : Int

/-- The number of rows asked for, which is negative if more were taken away than there are. -/
def TableRows.balance (r : TableRows) : Int := r.explicit.size + r.padding

/-- The number of rows. -/
def TableRows.count (r : TableRows) : Nat := r.balance.toNat

/-- What has been collected. -/
structure Builder where
  /-- The string heap. -/
  strings : ByteArray
  /-- The strings stored, with their offsets. -/
  stringIndex : List (Text × Nat)
  /-- The blob heap. -/
  blobs : ByteArray
  /-- The blobs stored, with their offsets. -/
  blobIndex : List (List UInt8 × Nat)
  /-- The literal heap. -/
  literals : ByteArray
  /-- The GUID heap. -/
  guids : ByteArray
  /-- The rows of each table. -/
  rows : TableMap TableRows
  /-- The tables to flag as sorted, if they have rows. -/
  sorted : Nat
  /-- The method bodies. -/
  bodies : ByteArray
  /-- The entry point of the runtime header. -/
  entryPoint : Nat
  /-- Whether to write a 64-bit header. -/
  wide : Bool
  /-- The version text of the metadata root. -/
  version : Text
  /-- Whether string indexes are wide in any case. -/
  wideStrings : Bool
  /-- Whether GUID indexes are wide in any case. -/
  wideGuids : Bool
  /-- Whether blob indexes are wide in any case. -/
  wideBlobs : Bool

namespace Builder

/-- The address of the one section. -/
def sectionAddress : Nat := 0x2000

/-- The alignment of the section in the file. -/
def fileAlignment : Nat := 0x200

/-- The size of all headers, which is where the section starts in the file. -/
def headerSize : Nat := 0x200

/-- The size of the runtime header. -/
def runtimeSize : Nat := 72

/-- The bytes before the first method body. -/
def bodiesOffset : Nat := 80

/-- The tables flagged as sorted unless something else is asked for. -/
def usualSorted : Nat := 0x000016003301FA00

/-- A builder that has collected nothing. -/
def empty : Builder where
  strings := ⟨#[0]⟩
  stringIndex := []
  blobs := ⟨#[0]⟩
  blobIndex := []
  literals := ⟨#[0]⟩
  guids := ByteArray.empty
  rows := TableMap.ofFn fun _ => ⟨#[], 0⟩
  sorted := usualSorted
  bodies := ByteArray.empty
  entryPoint := 0
  wide := false
  version := "v4.0.30319"
  wideStrings := false
  wideGuids := false
  wideBlobs := false

instance : Inhabited Builder := ⟨empty⟩

/-- The current number of rows of a table. -/
def rowCount (b : Builder) (t : TableId) : Nat := (b.rows.get t).count

/-- The number of rows asked for of a table. -/
def rowBalance (b : Builder) (t : TableId) : Int := (b.rows.get t).balance

/-! ## Collecting

Each of these gives the index of what was added and the builder with it. -/

/-- Stores a string; the empty string is at offset zero. -/
def addString (b : Builder) (s : Text) : Nat × Builder :=
  if s.isEmpty then (0, b)
  else match b.stringIndex.lookup s with
    | some i => (i, b)
    | none =>
      let i := b.strings.size
      (i, { b with strings := (b.strings ++ s.bytes).push 0, stringIndex := (s, i) :: b.stringIndex })

/-- Stores a blob. -/
def addBlob (b : Builder) (data : List UInt8) : Nat × Builder :=
  match b.blobIndex.lookup data with
  | some i => (i, b)
  | none =>
    let i := b.blobs.size
    (i, { b with
      blobs := b.blobs ++ (Compressed.lengthBytes data.length ++ data).toByteArray
      blobIndex := (data, i) :: b.blobIndex })

/-- The bytes of a literal: its units, then the flag that says whether one is not plain. -/
def literalBytes (s : Text) : List UInt8 :=
  let units := Units.encode (s.runes.map Rune.toChar)
  Units.toBytes units ++ [if units.any fun u => 0x7F ≤ u then 1 else 0]

/-- Appends a literal. -/
def addLiteral (b : Builder) (s : Text) : Nat × Builder :=
  let data := literalBytes s
  (b.literals.size,
    { b with literals := b.literals ++ (Compressed.lengthBytes data.length ++ data).toByteArray })

/-- Appends a GUID: sixteen bytes, zeros standing for those that are not given. -/
def addGuid (b : Builder) (g : List UInt8) : Nat × Builder :=
  let guids := b.guids ++ ((g ++ zeroBytes 16).take 16).toByteArray
  (guids.size / 16, { b with guids })

/-- Appends a row. -/
def addRow (b : Builder) (t : TableId) (cells : List Nat) : Except BuildFault (Nat × Builder) :=
  if cells.length ≠ (cellKinds t).length then .error .columnCount
  else
    let r := b.rows.get t
    let r := { r with explicit := r.explicit.push cells }
    .ok (r.explicit.size, { b with rows := b.rows.set t r })

/-- Appends zero rows, or takes rows away. -/
def pad (b : Builder) (t : TableId) (n : Int) : Builder :=
  let r := b.rows.get t
  { b with rows := b.rows.set t { r with padding := r.padding + n } }

/-- Appends a method body on a boundary of four bytes and gives its address. -/
def addBody (b : Builder) (body : List UInt8) : Nat × Builder :=
  let gap := (4 - b.bodies.size % 4) % 4
  (sectionAddress + bodiesOffset + b.bodies.size + gap,
    { b with bodies := b.bodies ++ (zeroBytes gap ++ body).toByteArray })

/-! ## The table stream -/

/-- The width of a string index. -/
def stringWidth (b : Builder) : Nat :=
  if b.wideStrings || 0x10000 ≤ b.strings.size then 4 else 2

/-- The width of a GUID index. -/
def guidWidth (b : Builder) : Nat :=
  if b.wideGuids || 0x10000 ≤ b.guids.size / 16 then 4 else 2

/-- The width of a blob index. -/
def blobWidth (b : Builder) : Nat :=
  if b.wideBlobs || 0x10000 ≤ b.blobs.size then 4 else 2

/-- The flags that say which heap indexes are wide. -/
def heapFlags (b : Builder) : Nat :=
  (if b.stringWidth = 4 then 1 else 0) + (if b.guidWidth = 4 then 2 else 0)
    + (if b.blobWidth = 4 then 4 else 0)

/-- The number of rows of the table with a number. -/
def rowsNumbered (b : Builder) (number : Nat) : Nat :=
  ((TableId.ofCode? number).map b.rowCount).getD 0

/-- The width of a cell. A row number is wide if there are more rows than two bytes tell apart, a
coded index if one of its tables has more rows than fit beside the tag. -/
def cellWidth (b : Builder) : CellKind → Nat
  | .fixed bytes => bytes
  | .string => b.stringWidth
  | .guid => b.guidWidth
  | .blob => b.blobWidth
  | .table number => if 0xFFFF < b.rowsNumbered number then 4 else 2
  | .coded family =>
    let l := tagLayout family
    let limit := 2 ^ (16 - l.bits)
    if l.numbers.any fun n => n ≠ noTable && limit ≤ b.rowsNumbered n.toNat then 4 else 2

/-- The widths of the cells of a row of a table, in order. -/
def cellWidths (b : Builder) (t : TableId) : List Nat := (cellKinds t).map b.cellWidth

/-- The tables that have rows. -/
def presentTables (b : Builder) : List TableId :=
  TableId.all.toList.filter fun t => 0 < b.rowCount t

/-- The tables that have rows, as bits. -/
def presentMask (b : Builder) : Nat := (b.presentTables.map fun t => 2 ^ t.code).sum

/-- The bytes of a row. -/
def rowBytes (sizes : List Nat) (cells : List Nat) : List UInt8 :=
  (List.zipWith leBytes sizes cells).flatten

/-- The bytes of a table. -/
def tableBytes (b : Builder) (t : TableId) : List UInt8 :=
  let sizes := b.cellWidths t
  let r := b.rows.get t
  (r.explicit.toList.take r.count).flatMap (rowBytes sizes)
    ++ zeroBytes ((r.count - r.explicit.size) * sizes.sum)

/-- The table stream without its final padding. -/
def tableData (b : Builder) : List UInt8 :=
  let present := b.presentMask
  leBytes 4 0 ++ leBytes 1 2 ++ leBytes 1 0 ++ leBytes 1 b.heapFlags ++ leBytes 1 1
    ++ leBytes 8 present ++ leBytes 8 (b.sorted &&& present)
    ++ b.presentTables.flatMap (fun t => leBytes 4 (b.rowCount t))
    ++ TableId.all.toList.flatMap b.tableBytes

/-! ## The metadata root -/

/-- The streams with their names. -/
def streams (b : Builder) : List (String × List UInt8) := [
  ("#~", padTo 4 b.tableData),
  ("#Strings", padTo 4 b.strings.data.toList),
  ("#US", padTo 4 b.literals.data.toList),
  ("#GUID", b.guids.data.toList),
  ("#Blob", padTo 4 b.blobs.data.toList)]

/-- The name of a stream, ended by a zero and padded. -/
def nameBytes (name : String) : List UInt8 := padTo 4 (name.toUTF8.data.toList ++ [0])

/-- The headers of streams that start at `offset`. -/
def streamHeaders : Nat → List (String × List UInt8) → List UInt8
  | _, [] => []
  | offset, (name, data) :: rest =>
    leBytes 4 offset ++ leBytes 4 data.length ++ nameBytes name
      ++ streamHeaders (offset + data.length) rest

/-- The metadata root with its streams. -/
def metadataRoot (b : Builder) : List UInt8 :=
  let streams := b.streams
  let version := padTo 4 (b.version.toList ++ [0])
  let headers := (streams.map fun (name, _) => 8 + (nameBytes name).length).sum
  leBytes 4 0x424A5342 ++ leBytes 2 1 ++ leBytes 2 1 ++ leBytes 4 0
    ++ leBytes 4 version.length ++ version ++ leBytes 2 0 ++ leBytes 2 streams.length
    ++ streamHeaders (16 + version.length + 4 + headers) streams
    ++ streams.flatMap (·.2)

/-! ## The executable -/

/-- The runtime header. -/
def runtimeHeader (b : Builder) (metadataAddress metadataSize : Nat) : List UInt8 :=
  leBytes 4 runtimeSize ++ leBytes 2 2 ++ leBytes 2 5 ++ leBytes 4 metadataAddress
    ++ leBytes 4 metadataSize ++ leBytes 4 1 ++ leBytes 4 b.entryPoint ++ zeroBytes 48

/-- The contents of the section. -/
def sectionData (b : Builder) : List UInt8 :=
  let bodies := padTo 4 b.bodies.data.toList
  let root := b.metadataRoot
  b.runtimeHeader (sectionAddress + bodiesOffset + bodies.length) root.length
    ++ zeroBytes (bodiesOffset - runtimeSize) ++ bodies ++ root

/-- The optional header, whose directory 14 locates the runtime header. -/
def optionalHeader (wide : Bool) : List UInt8 :=
  leBytes 2 (if wide then 0x20B else 0x10B) ++ zeroBytes (if wide then 106 else 90)
    ++ leBytes 4 16 ++ zeroBytes 112 ++ leBytes 4 sectionAddress ++ leBytes 4 runtimeSize
    ++ zeroBytes 8

/-- All headers. -/
def headers (wide : Bool) (virtualSize rawSize : Nat) : List UInt8 :=
  let opt := optionalHeader wide
  padTo headerSize
    (leBytes 2 0x5A4D ++ zeroBytes 58 ++ leBytes 4 0x80 ++ zeroBytes 64
      ++ leBytes 4 0x4550
      ++ leBytes 2 0x14C ++ leBytes 2 1 ++ zeroBytes 12 ++ leBytes 2 opt.length ++ leBytes 2 0x2102
      ++ opt
      ++ ".text".toUTF8.data.toList ++ zeroBytes 3 ++ leBytes 4 virtualSize
      ++ leBytes 4 sectionAddress ++ leBytes 4 rawSize ++ leBytes 4 headerSize ++ zeroBytes 12
      ++ leBytes 4 0x60000020)

/-- The finished image. -/
def bytes (b : Builder) : ByteArray :=
  let data := b.sectionData
  let raw := padTo fileAlignment data
  (headers b.wide data.length raw.length ++ raw).toByteArray

end Builder

/-! ## Steps -/

/-- A cell of a row to add: a number, or something to store first. -/
inductive Cell where
  /-- A number. -/
  | number (n : Nat)
  /-- A string to store. -/
  | string (s : Text)
  /-- A blob to store. -/
  | blob (data : List UInt8)
  /-- A GUID to store. -/
  | guid (g : List UInt8)

/-- One step of assembling. -/
inductive Step where
  /-- Choose a 32-bit or a 64-bit header. -/
  | setWide (on : Bool)
  /-- Set the entry point. -/
  | setEntryPoint (token : Nat)
  /-- Set the version text. -/
  | setVersion (version : Text)
  /-- Choose wide heap indexes. -/
  | setWideHeaps (strings guids blobs : Bool)
  /-- Store a string. -/
  | string (s : Text)
  /-- Store a blob. -/
  | blob (data : List UInt8)
  /-- Append a literal. -/
  | literal (s : Text)
  /-- Append a GUID. -/
  | guid (g : List UInt8)
  /-- Append a row. -/
  | row (table : TableId) (cells : List Cell)
  /-- Append zero rows, or take rows away. -/
  | pad (table : TableId) (n : Int)
  /-- Set the tables to flag as sorted. -/
  | setSorted (mask : Nat)
  /-- Ask for a row count. -/
  | rowCount (table : TableId)
  /-- Append a method body; no parts at all stand for an empty body. -/
  | body (parts : List BodyPart)
  /-- Append the module row. -/
  | module (name : Text)
  /-- Append an assembly. -/
  | assembly (name : Text) (version : List Nat)
  /-- Append an assembly reference. -/
  | assemblyRef (name : Text) (version : List Nat)
  /-- Append a type reference. -/
  | typeRef (scope : Nat) (space name : Text)
  /-- Append a type, which owns the fields and methods added up to the next one. -/
  | typeDef (flags : Nat) (space name : Text) (extends_ : Nat)
  /-- Append a field. -/
  | field (flags : Nat) (name : Text) (sig : List UInt8)
  /-- Append a method, with or without a body. -/
  | method (flags : Nat) (name : Text) (sig : List UInt8) (body : Option (List BodyPart))
  /-- Append a parameter. -/
  | param (flags sequence : Nat) (name : Text)
  /-- Append a member reference. -/
  | memberRef (parent : Nat) (name : Text) (sig : List UInt8)
  /-- Append a stand-alone signature. -/
  | standAloneSig (sig : List UInt8)
  /-- Append a type specification. -/
  | typeSpec (sig : List UInt8)

/-- A computation on a builder. -/
abbrev Build (α : Type) := StateT Builder (Except BuildFault) α

namespace Build

/-- Runs an addition that cannot fail. -/
def add (f : Builder → Nat × Builder) : Build Nat := modifyGet f

/-- Stores what a cell asks for and gives its number. -/
def cell : Cell → Build Nat
  | .number n => pure n
  | .string s => add (·.addString s)
  | .blob data => add (·.addBlob data)
  | .guid g => add (·.addGuid g)

/-- Appends a row whose cells are evaluated from left to right. -/
def row (t : TableId) (cells : List Cell) : Build Nat := do
  let values ← cells.mapM cell
  let (n, b) ← (← get).addRow t values
  set b
  return n

/-- Appends a method body. -/
def body (parts : List BodyPart) : Build Nat := do
  let bytes ← encodeBody parts
  add (·.addBody bytes)

/-- Applies a change that gives no number. -/
def change (f : Builder → Builder) : Build Nat := do
  modify f
  return 0

/-- The identity of every assembled module. -/
def moduleGuid : List UInt8 :=
  [0x11, 0x22, 0x33, 0x44, 0x55, 0x66, 0x77, 0x88, 0x99, 0xAA, 0xBB, 0xCC, 0xDD, 0xEE, 0xFF, 0x01]

/-- One more than the rows asked for of a table, in 32 bits: the first row that will be added to
it. -/
def nextRow (t : TableId) : Build Nat := do
  return (((← get).rowBalance t + 1) % 0x100000000).toNat

/-- Carries out a step that adds something and gives its number, zero for one that has none. -/
def addition : Step → Build Nat
  | .setWide on => change fun b => { b with wide := on }
  | .setEntryPoint token => change fun b => { b with entryPoint := token }
  | .setVersion version => change fun b => { b with version }
  | .setWideHeaps s g bl =>
    change fun b => { b with wideStrings := s, wideGuids := g, wideBlobs := bl }
  | .string s => add (·.addString s)
  | .blob data => add (·.addBlob data)
  | .literal s => add (·.addLiteral s)
  | .guid g => add (·.addGuid g)
  | .row t cells => row t cells
  | .pad t n => change (·.pad t n)
  | .setSorted mask => change fun b => { b with sorted := mask }
  | .rowCount t => do return (← get).rowCount t
  | .body parts => body parts
  | .module name => do
    let guid ← add (·.addGuid moduleGuid)
    row .module [.number 0, .string name, .number guid, .number 0, .number 0]
  | .assembly name version =>
    row .assembly ([.number 0x8004] ++ version.map .number
      ++ [.number 0, .number 0, .string name, .number 0])
  | .assemblyRef name version =>
    row .assemblyRef (version.map .number
      ++ [.number 0, .number 0, .string name, .number 0, .number 0])
  | .typeRef scope space name => row .typeRef [.number scope, .string name, .string space]
  | .typeDef flags space name base => do
    let fields ← nextRow .field
    let methods ← nextRow .methodDef
    row .typeDef [.number flags, .string name, .string space, .number base, .number fields,
      .number methods]
  | .field flags name sig => row .field [.number flags, .string name, .blob sig]
  | .method flags name sig parts? => do
    let address ← match parts? with
      | some parts => body parts
      | none => pure 0
    let params ← nextRow .param
    row .methodDef [.number address, .number 0, .number flags, .string name, .blob sig,
      .number params]
  | .param flags sequence name => row .param [.number flags, .number sequence, .string name]
  | .memberRef parent name sig => row .memberRef [.number parent, .string name, .blob sig]
  | .standAloneSig sig => row .standAloneSig [.blob sig]
  | .typeSpec sig => row .typeSpec [.blob sig]

/-- Carries out a step and gives its number. Only a number of rows can be negative. -/
def step : Step → Build Int
  | .rowCount t => do return (← get).rowBalance t
  | s => do return (← addition s : Nat)

end Build

/-- Carries out the steps on an empty builder; gives the number of each step and the builder. -/
def build (steps : List Step) : Except BuildFault (List Int × Builder) :=
  (steps.mapM Build.step).run Builder.empty

end ManagedImage.Assemble
