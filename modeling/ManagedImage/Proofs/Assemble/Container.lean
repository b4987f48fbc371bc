/-
The executable around an assembled image, read back.

The assembler writes one section, and the reader finds the metadata by
following three pointers: the header pointer, directory 14 and the metadata
directory of the runtime header. The lemmas below follow them over an arbitrary
section: `readHeaders_headers` for the outer headers, `decodeRuntime_metadata` for
the runtime header and `parse_bytes` for the whole file, whose metadata
directory cuts out exactly the metadata root.

Sizes enter only through the one bound that the file is shorter than 2^29
bytes: every size field is then below 2^32 and comes back as it was written.
-/
import ManagedImage.Proofs.Bytes.Holding
import ManagedImage.Portable.File
import ManagedImage.Assemble.Builder

set_option autoImplicit false

namespace ManagedImage.Assemble.Builder

open Portable

/-! ## The parts of the headers -/

/-- The size of the optional header. -/
def optionalSize (wide : Bool) : Nat := if wide then 240 else 224

/-- The header between signature and optional header. -/
def machineHeader (wide : Bool) : List UInt8 :=
  leBytes 2 0x14C ++ leBytes 2 1 ++ zeroBytes 12 ++ leBytes 2 (optionalSize wide)
    ++ leBytes 2 0x2102

/-- The one entry of the section table. -/
def sectionEntry (virtualSize rawSize : Nat) : List UInt8 :=
  ".text".toUTF8.data.toList ++ zeroBytes 3 ++ leBytes 4 virtualSize
    ++ leBytes 4 sectionAddress ++ leBytes 4 rawSize ++ leBytes 4 headerSize ++ zeroBytes 12
    ++ leBytes 4 0x60000020

theorem length_optionalHeader (wide : Bool) :
    (optionalHeader wide).length = optionalSize wide := by
  cases wide <;>
    simp only [optionalHeader, optionalSize, List.length_append, length_leBytes, length_zeroBytes,
      Bool.false_eq_true, if_true, if_false]

theorem length_machineHeader (wide : Bool) : (machineHeader wide).length = 20 := by
  simp only [machineHeader, List.length_append, length_leBytes, length_zeroBytes]

theorem length_sectionName : ".text".toUTF8.data.toList.length = 5 := by decide

theorem length_sectionEntry (virtualSize rawSize : Nat) :
    (sectionEntry virtualSize rawSize).length = 40 := by
  simp only [sectionEntry, List.length_append, length_leBytes, length_zeroBytes,
    length_sectionName]

/-- The headers in the order in which they are read. -/
theorem headers_eq (wide : Bool) (virtualSize rawSize : Nat) :
    headers wide virtualSize rawSize
      = padTo headerSize (leBytes 2 0x5A4D ++ zeroBytes 58 ++ leBytes 4 0x80 ++ zeroBytes 64
          ++ leBytes 4 0x4550 ++ machineHeader wide ++ optionalHeader wide
          ++ sectionEntry virtualSize rawSize) := by
  simp only [headers, machineHeader, sectionEntry, length_optionalHeader, List.append_assoc]

theorem length_headers (wide : Bool) (virtualSize rawSize : Nat) :
    (headers wide virtualSize rawSize).length = 0x200 := by
  rw [headers_eq, length_padTo]
  simp only [List.length_append, length_leBytes, length_zeroBytes, length_machineHeader,
    length_optionalHeader, length_sectionEntry, headerSize]
  cases wide <;> rfl

/-- Where each part of the headers lies. -/
structure HeaderParts (g : Region) (wide : Bool) (virtualSize rawSize : Nat) : Prop where
  mark : g.Holds 0 (leBytes 2 0x5A4D)
  pointer : g.Holds 60 (leBytes 4 0x80)
  signature : g.Holds 128 (leBytes 4 0x4550)
  machine : g.Holds 132 (machineHeader wide)
  optional : g.Holds 152 (optionalHeader wide)
  entry : g.Holds (152 + optionalSize wide) (sectionEntry virtualSize rawSize)

theorem headerParts {g : Region} {wide : Bool} {virtualSize rawSize : Nat}
    (h : g.Holds 0 (headers wide virtualSize rawSize)) :
    HeaderParts g wide virtualSize rawSize := by
  rw [headers_eq, padTo] at h
  simp only [Region.holds_append, List.length_append, length_leBytes, length_zeroBytes,
    length_machineHeader, length_optionalHeader, Nat.zero_add, Nat.reduceAdd, and_assoc] at h
  obtain ⟨h1, -, h2, -, h3, h4, h5, h6, -⟩ := h
  exact ⟨h1, h2, h3, h4, h5, h6⟩

/-! ## Reading them -/

/-- What the machine header says: one section, and the size of the optional header. -/
theorem machineHeader_words {h : Region} {wide : Bool} (hi : h.Is (machineHeader wide)) :
    h.wordD 2 2 = 1 ∧ h.wordD 2 16 = optionalSize wide := by
  have hh := hi.holds
  simp only [machineHeader, Region.holds_append, List.length_append, length_leBytes,
    length_zeroBytes, Nat.zero_add, Nat.reduceAdd, and_assoc] at hh
  obtain ⟨-, hcount, -, hsize, -⟩ := hh
  refine ⟨hcount.wordD_leBytes, ?_⟩
  rw [hsize.wordD_leBytes]
  cases wide <;> rfl

/-- What the optional header says: its magic number, sixteen directories, and the fourteenth. -/
theorem optionalHeader_words {o : Region} {wide : Bool} (hi : o.Is (optionalHeader wide)) :
    ∃ magic countAt : Nat, o.u16 0 = .ok magic
      ∧ File.directoryOffsets? magic = some (countAt, countAt + 4)
      ∧ o.u32 (countAt : Int) = .ok 16 ∧ countAt + 132 = optionalSize wide
      ∧ o.wordD 4 (countAt + 4 + 14 * 8) = sectionAddress
      ∧ o.wordD 4 (countAt + 4 + 14 * 8 + 4) = runtimeSize := by
  have hh := hi.holds
  cases wide with
  | false =>
    simp only [optionalHeader, Bool.false_eq_true, if_false, Region.holds_append,
      List.length_append, length_leBytes, length_zeroBytes, Nat.zero_add, Nat.reduceAdd,
      and_assoc] at hh
    obtain ⟨hmagic, -, hcount, -, hrva, hsize, -⟩ := hh
    exact ⟨0x10B, 92, hmagic.word_leBytes, rfl, hcount.word_leBytes, rfl, hrva.wordD_leBytes,
      hsize.wordD_leBytes⟩
  | true =>
    simp only [optionalHeader, if_true, Region.holds_append, List.length_append, length_leBytes,
      length_zeroBytes, Nat.zero_add, Nat.reduceAdd, and_assoc] at hh
    obtain ⟨hmagic, -, hcount, -, hrva, hsize, -⟩ := hh
    exact ⟨0x20B, 108, hmagic.word_leBytes, rfl, hcount.word_leBytes, rfl, hrva.wordD_leBytes,
      hsize.wordD_leBytes⟩

theorem pow_256_four : 256 ^ (4 : Nat) = 0x100000000 := by decide

/-- What the section table says about the one section. -/
theorem sectionEntry_words {t : Region} {virtualSize rawSize : Nat}
    (hi : t.Is (sectionEntry virtualSize rawSize)) (hv : virtualSize < 0x100000000) :
    (Section.read t 0).virtualSize = virtualSize
      ∧ (Section.read t 0).virtualAddress = sectionAddress
      ∧ (Section.read t 0).rawOffset = headerSize := by
  have hh := hi.holds
  simp only [sectionEntry, Region.holds_append, List.length_append, length_leBytes,
    length_zeroBytes, length_sectionName, Nat.zero_add, Nat.reduceAdd, and_assoc] at hh
  obtain ⟨-, -, hvirtual, haddress, -, hraw, -, -⟩ := hh
  refine ⟨?_, haddress.wordD_leBytes, hraw.wordD_leBytes⟩
  have hw := hvirtual.wordD_leBytes
  rwa [pow_256_four, Nat.mod_eq_of_lt hv] at hw

/-- The outer headers read back: directory 14 and the one section are as written. -/
theorem readHeaders_headers {g : Region} {wide : Bool} {virtualSize rawSize : Nat}
    (h : g.Holds 0 (headers wide virtualSize rawSize)) (hv : virtualSize < 0x100000000) :
    ∃ (hd : File.Headers) (s : Section), File.readHeaders g = .ok hd
      ∧ hd.directories.getD File.runtimeDirectory ⟨0, 0⟩ = ⟨sectionAddress, runtimeSize⟩
      ∧ hd.sections = #[s] ∧ s.virtualSize = virtualSize ∧ s.virtualAddress = sectionAddress
      ∧ s.rawOffset = headerSize := by
  have p := headerParts h
  have hmark : g.u16 0 = .ok 0x5A4D := p.mark.word_leBytes
  have hpointer : g.u32 (File.headerPointer : Int) = .ok 0x80 := p.pointer.word_leBytes
  have hsignature : g.u32 ((0x80 : Nat) : Int) = .ok 0x4550 := p.signature.word_leBytes
  obtain ⟨m, hm, him⟩ := p.machine.sub
  obtain ⟨o, ho, hio⟩ := p.optional.sub
  obtain ⟨t, ht, hit⟩ := p.entry.sub
  obtain ⟨hcount, hsize⟩ := machineHeader_words him
  obtain ⟨magic, countAt, hmagic, hoffsets, hdirs, hroom, hrva, hdirsize⟩ :=
    optionalHeader_words hio
  -- The reader cuts the windows with sizes it knows or has read, which are those written.
  rw [length_machineHeader] at hm
  rw [length_optionalHeader] at ho
  rw [length_sectionEntry] at ht
  have hfits : ¬ (countAt + 4 + 16 * 8 > optionalSize wide) := by omega
  have hread : File.readHeaders g = .ok {
      machine := m.wordD 2 0
      characteristics := m.wordD 2 18
      magic
      directories := ((List.range 16).map fun i =>
        Directory.mk (o.wordD 4 (countAt + 4 + i * 8)) (o.wordD 4 (countAt + 4 + i * 8 + 4))).toArray
      sections := #[Section.read t 0] } := by
    simp only [File.readHeaders, bind, Except.bind, hmark, hpointer, hsignature, Except.toOption,
      ne_eq, not_true, if_false, File.headerSize, Nat.reduceAdd, hm, hsize, ho, hmagic, hoffsets,
      hdirs, hfits, hcount, Section.entrySize, Nat.one_mul, ht]
    rfl
  refine ⟨_, Section.read t 0, hread, ?_, rfl, sectionEntry_words hit hv⟩
  show Directory.mk (o.wordD 4 (countAt + 4 + 14 * 8)) (o.wordD 4 (countAt + 4 + 14 * 8 + 4)) = _
  rw [hrva, hdirsize]

/-! ## The section -/

/-- The padded method bodies, as they stand in the section. -/
def paddedBodies (b : Builder) : List UInt8 := padTo 4 b.bodies.data.toList

/-- Where the metadata root starts in the section. -/
def rootOffset (b : Builder) : Nat := bodiesOffset + b.paddedBodies.length

theorem length_runtimeHeader (b : Builder) (address size : Nat) :
    (b.runtimeHeader address size).length = runtimeSize := by
  simp only [runtimeHeader, List.length_append, length_leBytes, length_zeroBytes, runtimeSize]

theorem sectionData_eq (b : Builder) :
    b.sectionData = b.runtimeHeader (sectionAddress + b.rootOffset) b.metadataRoot.length
      ++ zeroBytes 8 ++ b.paddedBodies ++ b.metadataRoot := by
  rw [sectionData, rootOffset, ← Nat.add_assoc]
  rfl

theorem length_sectionData (b : Builder) :
    b.sectionData.length = b.rootOffset + b.metadataRoot.length := by
  simp only [sectionData_eq, List.length_append, length_runtimeHeader, length_zeroBytes,
    rootOffset, bodiesOffset, runtimeSize]

/-- The file is the headers and the section behind them. -/
theorem size_bytes (b : Builder) :
    b.bytes.size = 0x200 + (padTo fileAlignment b.sectionData).length := by
  rw [bytes, List.size_toByteArray, List.length_append, length_headers]

theorem length_sectionData_le (b : Builder) : 0x200 + b.sectionData.length ≤ b.bytes.size := by
  have h := length_le_padTo fileAlignment b.sectionData
  rw [size_bytes]
  omega

/-- The whole file holds the headers, then the section. -/
theorem holds_bytes (b : Builder) :
    (Region.whole b.bytes).Holds 0
        (headers b.wide b.sectionData.length (padTo fileAlignment b.sectionData).length)
      ∧ (Region.whole b.bytes).Holds 0x200 b.sectionData := by
  have h := (Region.is_whole (headers b.wide b.sectionData.length
    (padTo fileAlignment b.sectionData).length ++ padTo fileAlignment b.sectionData)).holds
  refine ⟨h.left, ?_⟩
  have hs := h.right
  rw [length_headers, Nat.zero_add, padTo] at hs
  exact hs.left

/-- An address inside the one section resolves to its place behind the headers. -/
theorem resolveIn_section {s : Section} {size i : Nat} (hsize : s.virtualSize = size)
    (haddress : s.virtualAddress = sectionAddress) (hraw : s.rawOffset = headerSize)
    (hi : i < size) : resolveIn #[s] (sectionAddress + i) = .ok (0x200 + i) := by
  have hextent : s.extent = size := by rw [Section.extent, hsize, if_neg (by omega)]
  have hin : s.contains (sectionAddress + i) = true := by
    simp only [Section.contains, haddress, hextent, Bool.and_eq_true, decide_eq_true_eq]
    omega
  have hfind : (#[s] : Array Section).find? (·.contains (sectionAddress + i)) = some s := by
    simp only [List.find?_toArray, List.find?_cons, hin]
  simp only [resolveIn, hfind, Section.fileOffset, haddress, hraw, headerSize,
    Nat.add_sub_cancel_left]

/-- The runtime header says where the metadata is. -/
theorem decodeRuntime_metadata {b : Builder} {r : Region} {address size : Nat}
    (hi : r.Is (b.runtimeHeader address size)) (ha : address < 0x100000000)
    (hs : size < 0x100000000) : (File.decodeRuntime r).metadata = ⟨address, size⟩ := by
  have hh := hi.holds
  simp only [runtimeHeader, Region.holds_append, List.length_append, length_leBytes,
    Nat.zero_add, Nat.reduceAdd, and_assoc] at hh
  obtain ⟨-, -, -, haddress, hsize, -⟩ := hh
  have h1 := haddress.wordD_leBytes
  have h2 := hsize.wordD_leBytes
  rw [pow_256_four, Nat.mod_eq_of_lt ha] at h1
  rw [pow_256_four, Nat.mod_eq_of_lt hs] at h2
  rw [File.decodeRuntime, h1, h2]

/-- **A file with one section**, which starts with a runtime header, parses, and its metadata
directory is what the runtime header says. -/
theorem parse_of_holds {data : ByteArray} {b : Builder} {wide : Bool}
    {size rawSize address length : Nat}
    (hheaders : (Region.whole data).Holds 0 (headers wide size rawSize))
    (hruntime : (Region.whole data).Holds 0x200 (b.runtimeHeader address length))
    (hpos : 0 < size) (hsize : size < 0x100000000) (hzero : address ≠ 0)
    (haddress : address < 0x100000000) (hlength : length < 0x100000000) :
    ∃ (f : File) (s : Section), File.parse data = .ok f ∧ f.region = Region.whole data
      ∧ f.sections = #[s] ∧ s.virtualSize = size ∧ s.virtualAddress = sectionAddress
      ∧ s.rawOffset = headerSize ∧ f.runtime.metadata = ⟨address, length⟩ := by
  obtain ⟨hd, s, hread, hdir, hsections, hvs, hva, hraw⟩ := readHeaders_headers hheaders hsize
  -- The runtime header lies at the start of the section, so its address resolves to `0x200`.
  have hresolve : resolveIn hd.sections sectionAddress = .ok 0x200 := by
    rw [hsections]
    exact resolveIn_section (i := 0) hvs hva hraw hpos
  obtain ⟨r, hr, hir⟩ := hruntime.sub
  rw [length_runtimeHeader] at hr
  have hmeta := decodeRuntime_metadata hir haddress hlength
  have hruntime : File.readRuntime (Region.whole data) hd = .ok (File.decodeRuntime r) := by
    have hnonzero : ¬ sectionAddress = 0 := by decide
    have hrva : ¬ (File.decodeRuntime r).metadata.rva = 0 := by rw [hmeta]; exact hzero
    have hsub : (Region.whole data).sub ((0x200 : Nat) : Int) (File.runtimeSize : Int) = .ok r := hr
    simp only [File.readRuntime, bind, Except.bind, hdir, hnonzero, hresolve, hsub, hrva, if_false]
    rfl
  have hparse : File.parse data = .ok {
      region := Region.whole data
      machine := hd.machine
      characteristics := hd.characteristics
      magic := hd.magic
      directories := hd.directories
      sections := hd.sections
      runtime := File.decodeRuntime r } := by
    simp only [File.parse, bind, Except.bind, hread, hruntime]
    rfl
  exact ⟨_, s, hparse, rfl, hsections, hvs, hva, hraw, hmeta⟩

/-- **The container read back.** The file of a builder parses, its one section covers the
section contents, and its metadata directory is the metadata root. -/
theorem parse_bytes (b : Builder) (hsize : b.bytes.size < 0x20000000) :
    ∃ (f : File) (s : Section), File.parse b.bytes = .ok f ∧ f.region = Region.whole b.bytes
      ∧ f.sections = #[s] ∧ s.virtualSize = b.sectionData.length
      ∧ s.virtualAddress = sectionAddress ∧ s.rawOffset = headerSize
      ∧ f.runtime.metadata = ⟨sectionAddress + b.rootOffset, b.metadataRoot.length⟩ := by
  have hle := b.length_sectionData_le
  have hlen := b.length_sectionData
  have haddress : sectionAddress = 0x2000 := rfl
  have hroom : 80 ≤ b.rootOffset := by rw [rootOffset, bodiesOffset]; omega
  obtain ⟨hheaders, hsection⟩ := b.holds_bytes
  have hruntime := hsection
  rw [sectionData_eq] at hruntime
  -- The file bound keeps the address and the size of the metadata below 2^32.
  exact parse_of_holds hheaders hruntime.left.left.left (by omega) (by omega) (by omega) (by omega)
    (by omega)

/-- The bytes of the section at an offset are the region at the address of that offset. -/
theorem regionAt_section {data : ByteArray} {size : Nat} {f : File} {s : Section} {start : Nat}
    {bs : List UInt8} (hregion : f.region = Region.whole data) (hsections : f.sections = #[s])
    (hvs : s.virtualSize = size) (hva : s.virtualAddress = sectionAddress)
    (hraw : s.rawOffset = headerSize) (hstart : start < size)
    (h : (Region.whole data).Holds (0x200 + start) bs) :
    ∃ w : Region, f.regionAt (sectionAddress + start) (bs.length : Int) = .ok w ∧ w.Is bs := by
  obtain ⟨w, hw, hiw⟩ := h.sub
  have hresolve : f.resolve (sectionAddress + start) = .ok (0x200 + start) := by
    rw [File.resolve, hsections]
    exact resolveIn_section hvs hva hraw hstart
  refine ⟨w, ?_, hiw⟩
  simp only [File.regionAt, bind, Except.bind, hresolve, hregion, hw]

/-- The section holds the metadata root behind the method bodies. -/
theorem holds_metadataRoot (b : Builder) :
    (Region.whole b.bytes).Holds (0x200 + b.rootOffset) b.metadataRoot := by
  have h := b.holds_bytes.2
  rw [sectionData_eq] at h
  have hr := h.right
  simp only [List.length_append, length_runtimeHeader, length_zeroBytes] at hr
  exact hr

/-! ## A container around any root -/

/-- The section around a metadata root: the runtime header and the root. -/
def sectionAround (root : List UInt8) : List UInt8 :=
  empty.runtimeHeader (sectionAddress + bodiesOffset) root.length ++ zeroBytes 8 ++ root

/-- A file with nothing in its section but a metadata root, which need not be one that is
assembled. -/
def fileAround (root : List UInt8) : ByteArray :=
  (headers false (sectionAround root).length (padTo fileAlignment (sectionAround root)).length
    ++ padTo fileAlignment (sectionAround root)).toByteArray

theorem length_sectionAround (root : List UInt8) :
    (sectionAround root).length = bodiesOffset + root.length := by
  simp only [sectionAround, List.length_append, length_runtimeHeader, length_zeroBytes,
    runtimeSize, bodiesOffset]

theorem holds_fileAround (root : List UInt8) :
    (Region.whole (fileAround root)).Holds 0 (headers false (sectionAround root).length
        (padTo fileAlignment (sectionAround root)).length)
      ∧ (Region.whole (fileAround root)).Holds 0x200 (sectionAround root) := by
  have h := (Region.is_whole (headers false (sectionAround root).length
    (padTo fileAlignment (sectionAround root)).length
    ++ padTo fileAlignment (sectionAround root))).holds
  refine ⟨h.left, ?_⟩
  have hs := h.right
  rw [length_headers, Nat.zero_add, padTo] at hs
  exact hs.left

theorem parse_fileAround {root : List UInt8} (hpos : 0 < root.length)
    (hsmall : root.length < 0x20000000) :
    ∃ (f : File) (w : Region), File.parse (fileAround root) = .ok f
      ∧ f.regionAt f.runtime.metadata.rva f.runtime.metadata.size = .ok w ∧ w.Is root := by
  have hlen := length_sectionAround root
  have haddress : sectionAddress + bodiesOffset = 0x2050 := rfl
  have hoffset : bodiesOffset = 80 := rfl
  obtain ⟨hheaders, hsection⟩ := holds_fileAround root
  have hparts : sectionAround root = empty.runtimeHeader (sectionAddress + bodiesOffset) root.length
      ++ zeroBytes 8 ++ root := rfl
  rw [hparts] at hsection
  obtain ⟨f, s, hparse, hregion, hsections, hvs, hva, hraw, hmeta⟩ :=
    parse_of_holds hheaders hsection.left.left (by omega) (by omega) (by omega) (by omega)
      (by omega)
  have hroot : (Region.whole (fileAround root)).Holds (0x200 + bodiesOffset) root := by
    have hright := hsection.right
    rwa [List.length_append, length_runtimeHeader, length_zeroBytes] at hright
  obtain ⟨w, hat, hw⟩ := regionAt_section hregion hsections hvs hva hraw (by omega) hroot
  exact ⟨f, w, hparse, by rw [hmeta]; exact hat, hw⟩

end ManagedImage.Assemble.Builder
