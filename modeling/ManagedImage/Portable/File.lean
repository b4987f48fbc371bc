/-
The executable around the metadata.

Of a portable executable only what locates the metadata is read: the two
signatures, the header, the data directories, the section table and the runtime
header that directory 14 points at. Each step either finds its bytes inside the
file or names what was cut short and where.
-/
import ManagedImage.Portable.Section

set_option autoImplicit false

namespace ManagedImage.Portable

/-- An address and a size. -/
structure Directory where
  /-- The address of the first byte. -/
  rva : Nat
  /-- The number of bytes. -/
  size : Nat

/-- The header that points at the metadata. -/
structure RuntimeHeader where
  /-- The size of the header. -/
  size : Nat
  /-- The major runtime version. -/
  major : Nat
  /-- The minor runtime version. -/
  minor : Nat
  /-- Where the metadata is. -/
  metadata : Directory
  /-- The flags. -/
  flags : Nat
  /-- The token of the entry point, or zero. -/
  entryPoint : Nat
  /-- Where the resources are. -/
  resources : Directory
  /-- Where the strong name is. -/
  strongName : Directory

/-- A parsed executable. -/
structure File where
  /-- All bytes. -/
  region : Region
  /-- The machine word of the header. -/
  machine : Nat
  /-- The flags of the header. -/
  characteristics : Nat
  /-- The magic number of the optional header. -/
  magic : Nat
  /-- The data directories. -/
  directories : Array Directory
  /-- The section table in file order. -/
  sections : Array Section
  /-- The runtime header. -/
  runtime : RuntimeHeader

/-! ## Addresses -/

/-- The first section that holds an address, with its position in the table. -/
def sectionOf? (sections : Array Section) (rva : Nat) : Option Nat :=
  sections.findIdx? (·.contains rva)

/-- The file offset of an address. -/
def resolveIn (sections : Array Section) (rva : Nat) : Except Fault Nat :=
  match sections.find? (·.contains rva) with
  | some s => .ok (s.fileOffset rva)
  | none => .error (.format .pe Fault.noOffset
      ("RVA 0x" ++ hexPad 8 rva ++ " is not inside any section" : String))

namespace File

/-- The magic number of a 32-bit image. -/
def magic32 : Nat := 0x10b

/-- The magic number of a 64-bit image. -/
def magic64 : Nat := 0x20b

/-- Whether the image is a 64-bit one. -/
def is64 (f : File) : Bool := f.magic == magic64

/-- A data directory; an image that has fewer has an empty one. -/
def directory (f : File) (i : Int) : Directory :=
  if i < 0 then ⟨0, 0⟩ else f.directories.getD i.toNat ⟨0, 0⟩

/-- The file offset of an address. -/
def resolve (f : File) (rva : Nat) : Except Fault Nat := resolveIn f.sections rva

/-- The `length` bytes at an address. -/
def regionAt (f : File) (rva : Nat) (length : Int) : Except Fault Region := do
  let off ← f.resolve rva
  match f.region.sub off length with
  | .ok g => .ok g
  | .error _ => .error (.bounds .pe off
      (decimal length ++ " bytes at RVA 0x" ++ hexPad 8 rva ++ " exceed the image" : String))

/-- Everything from an address to the end of the file. -/
def regionFrom (f : File) (rva : Nat) : Except Fault Region := do
  let off ← f.resolve rva
  match f.region.startingAt off with
  | .ok g => .ok g
  | .error _ => .error (.bounds .pe off ("RVA 0x" ++ hexPad 8 rva ++ " beyond image" : String))

/-! ## Parsing -/

/-- The offset of the field that locates the header. -/
def headerPointer : Nat := 0x3C

/-- The size of the header between signature and optional header. -/
def headerSize : Nat := 20

/-- The size of the runtime header. -/
def runtimeSize : Nat := 72

/-- The data directory of the runtime header. -/
def runtimeDirectory : Nat := 14

/-- Where the optional header of a magic number keeps the directory count and the directories. -/
def directoryOffsets? (magic : Nat) : Option (Nat × Nat) :=
  if magic = magic32 then some (92, 96) else if magic = magic64 then some (108, 112) else none

/-- The outer headers, before the runtime header is looked for. -/
structure Headers where
  /-- The machine word. -/
  machine : Nat
  /-- The flags. -/
  characteristics : Nat
  /-- The magic number of the optional header. -/
  magic : Nat
  /-- The data directories. -/
  directories : Array Directory
  /-- The section table. -/
  sections : Array Section

/-- Reads the headers of a file. -/
def readHeaders (g : Region) : Except Fault Headers := do
  if (g.u16 0).toOption ≠ some 0x5A4D then throw (.format .pe 0 "missing MZ signature")
  let .ok start := g.u32 headerPointer
    | throw (.bounds .pe headerPointer "DOS header truncated")
  if (g.u32 start).toOption ≠ some 0x4550 then throw (.format .pe start "missing PE signature")
  let header := start + 4
  let .ok h := g.sub header headerSize
    | throw (.bounds .pe header "COFF header truncated")
  -- The window holds the whole header, so none of its words can be missing.
  let sectionCount := h.wordD 2 2
  let optSize := h.wordD 2 16
  let opt := header + headerSize
  let .ok o := g.sub opt optSize
    | throw (.bounds .pe opt "optional header truncated")
  let .ok magic := o.u16 0
    | throw (.bounds .pe opt "optional header is empty")
  let some (countAt, dirsAt) := directoryOffsets? magic
    | throw (.format .pe opt ("unknown optional header magic 0x" ++ hex magic : String))
  let .ok count := o.u32 countAt
    | throw (.bounds .pe (opt + countAt : Nat) "data directory count truncated")
  if dirsAt + count * 8 > optSize then
    throw (.bounds .pe (opt + countAt : Nat)
      s!"{count} data directories exceed optional header size {optSize}")
  let directories := (List.range count).map fun i =>
    Directory.mk (o.wordD 4 (dirsAt + i * 8)) (o.wordD 4 (dirsAt + i * 8 + 4))
  let table := opt + optSize
  let .ok t := g.sub table (sectionCount * Section.entrySize : Nat)
    | throw (.bounds .pe table "section table truncated")
  let sections := (List.range sectionCount).map fun i => Section.read t (i * Section.entrySize)
  return {
    machine := h.wordD 2 0
    characteristics := h.wordD 2 18
    magic
    directories := directories.toArray
    sections := sections.toArray }

/-- The fields of a runtime header that lies wholly inside the region. -/
def decodeRuntime (g : Region) : RuntimeHeader where
  size := g.wordD 4 0
  major := g.wordD 2 4
  minor := g.wordD 2 6
  metadata := ⟨g.wordD 4 8, g.wordD 4 12⟩
  flags := g.wordD 4 16
  entryPoint := g.wordD 4 20
  resources := ⟨g.wordD 4 24, g.wordD 4 28⟩
  strongName := ⟨g.wordD 4 32, g.wordD 4 36⟩

/-- Finds and reads the runtime header. -/
def readRuntime (g : Region) (h : Headers) : Except Fault RuntimeHeader := do
  let dir := h.directories.getD runtimeDirectory ⟨0, 0⟩
  if dir.rva = 0 then throw (.format .pe Fault.noOffset "image has no CLI header")
  let off ← resolveIn h.sections dir.rva
  let .ok r := g.sub off runtimeSize
    | throw (.bounds .pe off "CLI header truncated")
  let runtime := decodeRuntime r
  if runtime.metadata.rva = 0 then
    throw (.format .pe (off + 8 : Nat) "CLI header has no metadata directory")
  return runtime

/-- Parses an executable held in memory. -/
def parse (data : ByteArray) : Except Fault File := do
  let g := Region.whole data
  let h ← readHeaders g
  let runtime ← readRuntime g h
  return {
    region := g
    machine := h.machine
    characteristics := h.characteristics
    magic := h.magic
    directories := h.directories
    sections := h.sections
    runtime }

/-- Parses the first `size` bytes of a source that holds `data`. -/
def parsePart (data : ByteArray) (size : Int) : Except Fault File :=
  if size < 0 then
    .error (.invalidInput .pe ("negative image size " ++ decimal size : String))
  else if data.size < size.toNat then
    .error (.context "pe: failed to read image: " .endOfFile)
  else parse (data.extract 0 size.toNat)

end File

end ManagedImage.Portable
