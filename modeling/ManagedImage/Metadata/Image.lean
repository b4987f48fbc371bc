/-
A parsed image: the metadata root, its streams, and the tables and heaps they
hold.

The root names its streams one after the other; a later stream of a name takes
the place of an earlier one. The table stream starts with row counts, from
which the width of every column, the size of every row and the place of every
table follow. Nothing is looked up lazily: an image that parses has all of its
tables inside the table stream.
-/
import ManagedImage.Portable.File
import ManagedImage.Metadata.Heap
import ManagedImage.Metadata.Table
import ManagedImage.Text.Quoted

set_option autoImplicit false

namespace ManagedImage

/-- A stream as the root declares it. -/
structure StreamHeader where
  /-- The name. -/
  name : Text
  /-- The offset from the root. -/
  offset : Nat
  /-- The number of bytes. -/
  size : Nat

/-- The streams bound so far while the root is read. -/
structure Streams where
  /-- The headers in file order. -/
  headers : List StreamHeader
  /-- The table stream. -/
  tables : Region
  /-- Whether a stream with optimised tables has been seen. -/
  compressed : Bool
  /-- The string heap. -/
  strings : Region
  /-- The literal heap. -/
  literals : Region
  /-- The GUID heap. -/
  guids : Region
  /-- The blob heap. -/
  blobs : Region

namespace Streams

/-- No stream bound. -/
def none : Streams := ⟨[], .empty, false, .empty, .empty, .empty, .empty⟩

/-- Binds a stream by its name; a name the format does not know is refused. -/
def bind? (s : Streams) (name : Text) (data : Region) : Option Streams :=
  if name = "#~" then some { s with tables := data, compressed := true }
  else if name = "#-" then some { s with tables := data }
  else if name = "#Strings" then some { s with strings := data }
  else if name = "#US" then some { s with literals := data }
  else if name = "#GUID" then some { s with guids := data }
  else if name = "#Blob" then some { s with blobs := data }
  else Option.none

/-- One stream header. -/
def readHeader : Read StreamHeader := do
  let offset ← Read.u32
  let size ← Read.u32
  let name ← Read.zeroTerminated
  Read.align 4
  return { name, offset, size }

/-- Reads and binds `left` more headers; `i` of them are behind. -/
def readHeaders (root : Region) : (left i : Nat) → Reader → Streams → Except Fault Streams
  | 0, _, _, s => .ok s
  | left + 1, i, r, s => do
    let at_ : Int := (root.base + r.offset : Nat)
    match readHeader r with
    | .error _ _ => throw (.bounds .metadata at_ s!"stream header {i} truncated")
    | .ok h r' =>
      let .ok data := root.sub h.offset h.size
        | throw (.bounds .metadata at_ ("stream " ++ h.name.quoted ++ (" (0x" ++ hex h.offset ++ "+0x"
            ++ hex h.size ++ ") exceeds the metadata root" : String)))
      let some s' := s.bind? h.name data
        | throw (.format .metadata at_ ("unknown stream " ++ h.name.quoted))
      readHeaders root left (i + 1) r' { s' with headers := s.headers ++ [h] }

end Streams

/-- What the metadata root says. -/
structure Root where
  /-- The version text. -/
  version : Text
  /-- The streams. -/
  streams : Streams

namespace Root

/-- The number the root starts with. -/
def magic : Nat := 0x424A5342

/-- The length of the version field: rounded up to a multiple of four in 32 bits. -/
def versionLength (declared : Nat) : Nat := (declared + 3) % 0x100000000 / 4 * 4

/-- The fault of a root that ends too early. -/
def truncated (offset : Nat) : Fault := .bounds .metadata offset "metadata root truncated"

/-- Reads the metadata root. -/
def read (g : Region) : Except Fault Root := do
  if (g.u32 0).toOption ≠ some magic then
    throw (.format .metadata g.base "missing BSJB signature")
  let .ok declared := g.u32 12 | throw (truncated (g.base + 12))
  let length := versionLength declared
  let .ok version r := Read.fixedText length (g.reader.seekTo 16)
    | throw (.bounds .metadata (g.base + 16 : Nat)
        s!"version string of {length} bytes exceeds the root")
  let .ok _ r := Read.skip 2 r | throw (truncated (g.base + r.offset))
  let .ok count r := Read.u16 r | throw (truncated (g.base + r.offset))
  let streams ← Streams.readHeaders g count 0 r .none
  if streams.tables.len = 0 then
    throw (.format .metadata g.base "image has no table stream")
  return { version, streams }

end Root

/-! ## The table stream -/

/-- The head of the table stream. -/
structure TableHead where
  /-- The major version. -/
  major : Nat
  /-- The minor version. -/
  minor : Nat
  /-- The flags that widen heap indexes. -/
  heapSizes : Nat
  /-- Which tables have a row count. -/
  valid : Nat
  /-- Which tables are flagged as sorted. -/
  sorted : Nat

namespace TableHead

/-- The number of bytes of the head. -/
def size : Nat := 24

/-- The flags for wide string, GUID and blob indexes, and for a word after the row counts. -/
def wideStrings : Nat := 0
@[inherit_doc wideStrings] def wideGuids : Nat := 1
@[inherit_doc wideStrings] def wideBlobs : Nat := 2
@[inherit_doc wideStrings] def extraData : Nat := 6

/-- The head at the start of the stream. -/
def read (g : Region) : Except Fault TableHead :=
  if g.len < size then .error (.bounds .table g.base "table stream header truncated")
  else .ok {
    major := g.wordD 1 4
    minor := g.wordD 1 5
    heapSizes := g.wordD 1 6
    valid := g.wordD 8 8
    sorted := g.wordD 8 16 }

/-- The table numbers whose bit is set. -/
def present (h : TableHead) : List Nat := (List.range 64).filter h.valid.testBit

/-- Reads the row count of each present table, in order. -/
def readRows (g : Region) : List Nat → Reader → TableMap Nat → Except Fault (TableMap Nat × Reader)
  | [], r, rows => .ok (rows, r)
  | n :: rest, r, rows =>
    match TableId.ofCode? n with
    | none => .error (.format .table (g.base + 8 : Nat)
        ("unknown table 0x" ++ hexPad 2 n ++ " in valid mask" : String))
    | some t =>
      match Read.u32 r with
      | .ok count r' => readRows g rest r' (rows.set t count)
      | .error _ _ => .error (.bounds .table (g.base + r.offset : Nat)
          ("row count for " ++ t.name ++ " truncated" : String))

/-- The width of an index into a heap. -/
def heapWidth (h : TableHead) (bit : Nat) : Nat := if h.heapSizes.testBit bit then 4 else 2

/-- The widths that follow from the flags and the row counts. -/
def widths (h : TableHead) (rows : TableMap Nat) : Widths where
  strings := h.heapWidth wideStrings
  guid := h.heapWidth wideGuids
  blob := h.heapWidth wideBlobs
  rows

end TableHead

/-- The tables of an image and what they were laid out from. -/
structure TableStream where
  /-- The head. -/
  head : TableHead
  /-- The widths of all columns. -/
  widths : Widths
  /-- The tables. -/
  tables : TableMap Table

namespace TableStream

/-- The bytes that the rows of a table take. -/
def tableSize (w : Widths) (layouts : TableMap Layout) (t : TableId) : Nat :=
  w.rows.get t * (layouts.get t).rowSize

/-- Where a table starts: after the tables with smaller numbers. -/
def tableStart (w : Widths) (layouts : TableMap Layout) (first : Nat) (t : TableId) : Nat :=
  first + ((TableId.all.toList.take t.code).map (tableSize w layouts)).sum

/-- A table at its place in the stream. -/
def placeTable (g : Region) (h : TableHead) (w : Widths) (layouts : TableMap Layout)
    (first : Nat) (t : TableId) : Except Fault Table :=
  let start := tableStart w layouts first t
  match g.sub start (tableSize w layouts t) with
  | .ok data => .ok {
      id := t
      rows := w.rows.get t
      sorted := h.sorted.testBit t.code
      indexWidth := w.table t
      layout := layouts.get t
      data }
  | .error _ => .error (.bounds .table (g.base + start : Nat)
      (t.name ++ s!": {w.rows.get t} rows of {(layouts.get t).rowSize} bytes exceed the table stream"
        : String))

/-- Reads the table stream. -/
def read (g : Region) : Except Fault TableStream := do
  let head ← TableHead.read g
  let zero : TableMap Nat := TableMap.ofFn fun _ => 0
  let (rows, r) ← TableHead.readRows g head.present (g.reader.seekTo TableHead.size) zero
  let extra := if head.heapSizes.testBit TableHead.extraData then 4 else 0
  let .ok _ r := Read.skip extra r
    | throw (.bounds .table (g.base + r.offset : Nat) "extra data truncated")
  -- The widths depend on all row counts, so tables are placed when all counts are read.
  let widths := head.widths rows
  let layouts := TableMap.ofFn widths.layout
  let tables ← TableId.all.mapM (placeTable g head widths layouts r.offset)
  return { head, widths, tables := ⟨tables⟩ }

end TableStream

/-! ## Images -/

/-- A parsed image. -/
structure Image where
  /-- The executable around it. -/
  file : Portable.File
  /-- Where it was opened from; empty for an image in memory. -/
  path : Text
  /-- The metadata root. -/
  root : Region
  /-- The version text of the root. -/
  version : Text
  /-- The streams of the root. -/
  streams : Streams
  /-- The head of the table stream. -/
  head : TableHead
  /-- The widths of all columns. -/
  widths : Widths
  /-- The tables. -/
  tables : TableMap Table

namespace Image

/-- Reads the metadata of a parsed executable. -/
def ofFile (f : Portable.File) : Except Fault Image := do
  let dir := f.runtime.metadata
  let region ← f.regionAt dir.rva dir.size
  let root ← Root.read region
  let stream ← TableStream.read root.streams.tables
  return {
    file := f
    path := Text.empty
    root := region
    version := root.version
    streams := root.streams
    head := stream.head
    widths := stream.widths
    tables := stream.tables }

/-- The fault of an executable that could not be read. -/
def openFault (f : Fault) : Fault := .context "metadata: failed to open image: " f

/-- Parses an image held in memory. -/
def parse (data : ByteArray) : Except Fault Image :=
  match Portable.File.parse data with
  | .ok f => ofFile f
  | .error e => .error (openFault e)

/-- Parses an image from the first `size` bytes of a source. -/
def parsePart (data : ByteArray) (size : Int) : Except Fault Image :=
  match Portable.File.parsePart data size with
  | .ok f => ofFile f
  | .error e => .error (openFault e)

/-- A table. -/
def table (img : Image) (t : TableId) : Table := img.tables.get t

/-- The string heap. -/
def strings (img : Image) : StringHeap := ⟨img.streams.strings, img.widths.strings⟩

/-- The blob heap. -/
def blobs (img : Image) : BlobHeap := ⟨img.streams.blobs, img.widths.blob⟩

/-- The GUID heap. -/
def guids (img : Image) : GuidHeap := ⟨img.streams.guids, img.widths.guid⟩

/-- The literal heap. -/
def literals (img : Image) : LiteralHeap := ⟨img.streams.literals⟩

/-- Whether the tables come from an optimised stream. -/
def compressed (img : Image) : Bool := img.streams.compressed

/-- The token of the entry point; nil for a library. -/
def entryPoint (img : Image) : Token := Token.ofNat img.file.runtime.entryPoint

/-- Whether a token refers to a row that exists. -/
def hasRow (img : Image) (tok : Token) : Bool :=
  match tok.table? with
  | some t => (img.table t).hasRow tok.row
  | none => false

/-- The tables that have rows, in order. -/
def presentTables (img : Image) : List Table :=
  (TableId.all.toList.map img.table).filter fun t => 0 < t.rows

end Image

end ManagedImage
