/-
Addresses of the loaded program, and their places in the file.

A header is read after one look at its size, and what its single reads report is passed
over. Here the file is read once more with every read checked (`Strict`), entries and
fields one behind the other; both readings give the same (`parseStrict_eq`), so no field of
a file is missing.

The fields of a section are then words, and nothing is known of them but that. Whether an
address lies in a section is told by a comparison and a difference of words, its place by a
sum. The difference is looked at only where the comparison holds (`containsWord_eq`), and
the sum of two words is far below the range of the sum (`offsetWord_eq`); so the search over
the sections is one in natural numbers, whatever they overlap or run past. What is cut out
of the file at the place found is then a matter of its size alone (`regionAt_iff_cuts`).
-/
import ManagedImage.Proofs.Code.BodyBounds
import Mathlib.Data.List.Find

set_option autoImplicit false

namespace ManagedImage

open Body (Strict)
open Body.Strict (complete)

/-! ## Reads one behind the other -/

namespace Region

/-- The region is `n` bytes of a file from an offset on. -/
structure Cuts (w : Region) (data : ByteArray) (start n : Nat) : Prop where
  data_eq : w.data = data
  base_eq : w.base = start
  len_eq : w.len = n

theorem Cuts.unique {w w' : Region} {data : ByteArray} {start n : Nat} (h : w.Cuts data start n)
    (h' : w'.Cuts data start n) : w = w' := by
  obtain ⟨d, b, l, hb⟩ := w
  obtain ⟨d', b', l', hb'⟩ := w'
  obtain ⟨rfl, rfl, rfl⟩ := h
  obtain ⟨rfl, rfl, rfl⟩ := h'
  rfl

theorem exists_cuts {data : ByteArray} {start n : Nat} (h : start + n ≤ data.size) :
    ∃ w : Region, w.Cuts data start n := ⟨⟨data, start, n, h⟩, rfl, rfl, rfl⟩

/-- The bytes of the region are those of the file at its place. -/
theorem Cuts.toList_eq {w : Region} {data : ByteArray} {start n : Nat} (h : w.Cuts data start n) :
    w.toList = (data.data.toList.drop start).take n := by
  obtain ⟨rfl, rfl, rfl⟩ := h
  exact w.toList_eq

theorem sub_ok_iff {g w : Region} {start : Nat} {length : Int} : g.sub start length = .ok w ↔
    0 ≤ length ∧ start + length.toNat ≤ g.len ∧ w.Cuts g.data (g.base + start) length.toNat := by
  constructor
  · intro h
    obtain ⟨-, hlength, hin, hdata, hbase, hlen⟩ := sub_ok h
    exact ⟨hlength, hin, hdata, hbase, hlen⟩
  · rintro ⟨hlength, hin, hw⟩
    have hin' : (start : Int).toNat + length.toNat ≤ g.len := by rwa [Int.toNat_natCast]
    rw [sub, if_neg (by omega), dif_pos hin']
    exact congrArg Except.ok (Cuts.unique ⟨rfl, rfl, rfl⟩ hw)

theorem startingAt_ok_iff {g w : Region} {start : Nat} : g.startingAt start = .ok w ↔
    start ≤ g.len ∧ w.Cuts g.data (g.base + start) (g.len - start) := by
  rw [startingAt, if_neg (by omega), Int.toNat_natCast, sub_ok_iff, Int.toNat_natCast]
  constructor
  · rintro ⟨-, hin, hw⟩
    exact ⟨by omega, hw⟩
  · rintro ⟨hin, hw⟩
    exact ⟨by omega, by omega, hw⟩

theorem u16_inside {g : Region} (offset : Nat) (h : offset + 2 ≤ g.len) :
    g.u16 offset = .ok (g.wordD 2 offset) := word_eq_wordD h

theorem u32_inside {g : Region} (offset : Nat) (h : offset + 4 ≤ g.len) :
    g.u32 offset = .ok (g.wordD 4 offset) := word_eq_wordD h

end Region

namespace Read

variable {α β : Type}

/-- Reading goes on behind a word that lies inside. -/
theorem bind_word {x : Nat → Read α} {g : Region} {at_ width : Nat} (h : at_ + width ≤ g.len) :
    (Read.word width >>= x) ⟨g, at_⟩ = x (g.wordD width at_) ⟨g, at_ + width⟩ := by
  have hhas : Reader.has ⟨g, at_⟩ width = true := by
    have hle : (width : Int) ≤ (g.len - at_ : Nat) := by omega
    rw [Reader.has, Reader.remaining, decide_eq_true (Int.natCast_nonneg _), decide_eq_true hle]
    rfl
  simp only [Read.word, EStateM.bind_apply, EStateM.get_apply, hhas, if_true, EStateM.set_apply,
    EStateM.pure_apply, Region.wordD, if_pos h]
  rfl

/-- Reading goes on behind bytes that lie inside. -/
theorem bind_bytes {x : ByteArray → Read α} {g : Region} {at_ : Nat} (n : Nat)
    (h : at_ + n ≤ g.len) :
    (Read.bytes n >>= x) ⟨g, at_⟩
      = x ((List.range n).map fun i => g.byte (at_ + i)).toByteArray ⟨g, at_ + n⟩ := by
  have hbytes := Read.bytes_holds (r := ⟨g, at_⟩) (Region.holds_bytes h)
  rw [List.length_map, List.length_range] at hbytes
  rw [EStateM.bind_apply, hbytes]
  rfl

end Read

namespace Portable

/-! ## Sections read in order -/

namespace Section

/-- An entry read field by field. -/
def readInOrder : Read Section := do
  let name ← Read.bytes 8
  let virtualSize ← Read.u32
  let virtualAddress ← Read.u32
  let rawSize ← Read.u32
  let rawOffset ← Read.u32
  let relocations ← Read.u32
  let lineNumbers ← Read.u32
  let relocationCount ← Read.u16
  let lineNumberCount ← Read.u16
  let characteristics ← Read.u32
  return {
    name := name.data.toList
    virtualSize
    virtualAddress
    rawSize
    rawOffset
    relocations
    lineNumbers
    relocationCount
    lineNumberCount
    characteristics }

/-- Entries one behind the other. -/
def tableInOrder : Nat → Read (List Section)
  | 0 => return []
  | n + 1 => do
    let s ← readInOrder
    return s :: (← tableInOrder n)

/-- An entry that lies inside misses no field. -/
theorem readInOrder_eq {g : Region} {at_ : Nat} (h : at_ + entrySize ≤ g.len) :
    readInOrder ⟨g, at_⟩ = .ok (read g at_) ⟨g, at_ + entrySize⟩ := by
  rw [entrySize] at h
  simp only [readInOrder, Read.u32, Read.u16]
  rw [show (8 : Int) = (8 : Nat) from rfl, Read.bind_bytes 8 (by omega),
    Read.bind_word (by omega), Read.bind_word (by omega), Read.bind_word (by omega),
    Read.bind_word (by omega), Read.bind_word (by omega), Read.bind_word (by omega),
    Read.bind_word (by omega), Read.bind_word (by omega), Read.bind_word (by omega),
    List.data_toByteArray, List.toList_toArray]
  rfl

/-- A table that lies inside misses no entry. -/
theorem tableInOrder_eq {g : Region} (n : Nat) : ∀ at_ : Nat, at_ + n * entrySize ≤ g.len →
    tableInOrder n ⟨g, at_⟩
      = .ok ((List.range n).map fun i => read g (at_ + i * entrySize)) ⟨g, at_ + n * entrySize⟩ := by
  induction n with
  | zero =>
    intro at_ _
    rw [Nat.zero_mul]
    rfl
  | succ n ih =>
    intro at_ h
    rw [Nat.succ_mul] at h
    have hfirst := readInOrder_eq (by omega : at_ + entrySize ≤ g.len)
    have hrest := ih (at_ + entrySize) (by omega)
    have hplace : ∀ i, at_ + entrySize + i * entrySize = at_ + (i + 1) * entrySize := by
      intro i
      rw [Nat.succ_mul]
      omega
    simp only [hplace] at hrest
    simp only [tableInOrder, EStateM.bind_apply, hfirst, hrest, EStateM.pure_apply,
      List.range_succ_eq_map, List.map_cons, List.map_map, Nat.zero_mul, Nat.add_zero]
    rfl

theorem tableInOrder_inside {t : Region} {n : Nat} (h : n * entrySize ≤ t.len) :
    (tableInOrder n).result t.reader
      = .ok ((List.range n).map fun i => read t (i * entrySize)) := by
  have hall := tableInOrder_eq (g := t) n 0 (by omega)
  simp only [Nat.zero_add] at hall
  exact Read.result_ok hall

end Section

/-! ## Words -/

namespace Section

variable {s : Section}

/-- Addresses and sizes are words of 32 bits. -/
structure Narrow (s : Section) : Prop where
  virtualSize : s.virtualSize < 0x100000000
  virtualAddress : s.virtualAddress < 0x100000000
  rawSize : s.rawSize < 0x100000000
  rawOffset : s.rawOffset < 0x100000000

theorem narrow_read (g : Region) (at_ : Nat) : (read g at_).Narrow :=
  ⟨g.wordD_lt 4 _, g.wordD_lt 4 _, g.wordD_lt 4 _, g.wordD_lt 4 _⟩

/-- Whether an address lies in the section, by a comparison and a difference of words. -/
def containsWord (s : Section) (rva : UInt32) : Bool :=
  let start := UInt32.ofNat s.virtualAddress
  let size := UInt32.ofNat (if UInt32.ofNat s.virtualSize = 0 then s.rawSize else s.virtualSize)
  start ≤ rva && rva - start < size

/-- The file offset of an address, as a sum of signed numbers of 64 bits. -/
def offsetWord (s : Section) (rva : UInt32) : Int :=
  signedWord 64 ((s.rawOffset + (rva - UInt32.ofNat s.virtualAddress).toNat) % 2 ^ 64)

theorem toNat_start (h : s.Narrow) :
    (UInt32.ofNat s.virtualAddress).toNat = s.virtualAddress :=
  UInt32.toNat_ofNat_of_lt' h.virtualAddress

/-- The difference does not wrap where it is needed, from the start on. -/
theorem toNat_sub_start (h : s.Narrow) {rva : UInt32} (hle : s.virtualAddress ≤ rva.toNat) :
    (rva - UInt32.ofNat s.virtualAddress).toNat = rva.toNat - s.virtualAddress := by
  have hstart : UInt32.ofNat s.virtualAddress ≤ rva := by
    rw [UInt32.le_iff_toNat_le, toNat_start h]
    exact hle
  rw [UInt32.toNat_sub_of_le _ _ hstart, toNat_start h]

theorem toNat_size (h : s.Narrow) :
    (UInt32.ofNat (if UInt32.ofNat s.virtualSize = 0 then s.rawSize else s.virtualSize)).toNat
      = s.extent := by
  have hzero : UInt32.ofNat s.virtualSize = 0 ↔ s.virtualSize = 0 := by
    rw [← UInt32.toNat_inj, UInt32.toNat_ofNat_of_lt' h.virtualSize]
    rfl
  rw [extent]
  simp only [hzero]
  split
  · exact UInt32.toNat_ofNat_of_lt' h.rawSize
  · exact UInt32.toNat_ofNat_of_lt' h.virtualSize

/-- **The test on words is the test on numbers.** Below the start the comparison fails, so a
difference that wraps is never looked at. -/
theorem containsWord_eq (h : s.Narrow) (rva : UInt32) :
    s.containsWord rva = s.contains rva.toNat := by
  rw [Bool.eq_iff_iff]
  simp only [containsWord, contains, Bool.and_eq_true, decide_eq_true_eq, UInt32.le_iff_toNat_le,
    UInt32.lt_iff_toNat_lt, toNat_start h, toNat_size h]
  refine and_congr_right fun hle => ?_
  rw [toNat_sub_start h hle]

/-- **The sum does not wrap**: it is of two words of 32 bits. -/
theorem offsetWord_eq (h : s.Narrow) {rva : UInt32} (hle : s.virtualAddress ≤ rva.toNat) :
    s.offsetWord rva = s.fileOffset rva.toNat := by
  have hraw := h.rawOffset
  have hrva : rva.toNat < 0x100000000 := rva.toNat_lt
  have hspan : 2 ^ 64 = 0x10000000000000000 := by decide
  have hhalf : 2 ^ (64 - 1) = 0x8000000000000000 := by decide
  rw [offsetWord, fileOffset, toNat_sub_start h hle, signedWord, hspan, hhalf,
    Nat.mod_eq_of_lt (by omega), if_pos (by omega)]

/-- The address is among those from the start of the section on, as many as it covers. -/
def Covers (s : Section) (rva : Nat) : Prop :=
  s.virtualAddress ≤ rva ∧ rva < s.virtualAddress + s.extent

theorem contains_iff {rva : Nat} : s.contains rva = true ↔ s.Covers rva := by
  rw [contains, Bool.and_eq_true, decide_eq_true_eq, decide_eq_true_eq, Covers]
  omega

end Section

/-- The first section in file order that covers the address. -/
def FirstCovering (sections : Array Section) (rva : Nat) (s : Section) : Prop :=
  ∃ before behind, sections.toList = before ++ s :: behind ∧ s.Covers rva
    ∧ ∀ t ∈ before, ¬ t.Covers rva

section Lookup

variable {sections : Array Section} {rva : Nat} {s : Section}

theorem find?_eq_some_iff :
    sections.find? (·.contains rva) = some s ↔ FirstCovering sections rva s := by
  rw [← Array.find?_toList, List.find?_eq_some_iff_append]
  simp only [FirstCovering, Section.contains_iff, Bool.not_eq_eq_eq_not, Bool.not_true,
    ← Bool.not_eq_true]
  constructor
  · rintro ⟨hs, before, behind, hlist, hbefore⟩
    exact ⟨before, behind, hlist, hs, hbefore⟩
  · rintro ⟨before, behind, hlist, hs, hbefore⟩
    exact ⟨hs, before, behind, hlist, hbefore⟩

theorem FirstCovering.unique {t : Section} (hs : FirstCovering sections rva s)
    (ht : FirstCovering sections rva t) : s = t := by
  rw [← find?_eq_some_iff] at hs ht
  exact Option.some.inj (hs.symm.trans ht)

/-- There is a first section that covers the address if there is any. -/
theorem exists_firstCovering_iff :
    (∃ s, FirstCovering sections rva s) ↔ ∃ s ∈ sections, s.Covers rva := by
  simp only [← find?_eq_some_iff, ← Section.contains_iff, ← Option.isSome_iff_exists,
    Array.find?_isSome]

end Lookup

/-- The file offset of an address in arithmetic of words. -/
def resolveWord (sections : Array Section) (rva : UInt32) : Except Fault Int :=
  match sections.find? (·.containsWord rva) with
  | some s => .ok (s.offsetWord rva)
  | none => .error (.format .pe Fault.noOffset
      ("RVA 0x" ++ hexPad 8 rva.toNat ++ " is not inside any section" : String))

theorem resolveWord_eq {sections : Array Section} (h : ∀ s ∈ sections, s.Narrow) (rva : UInt32) :
    resolveWord sections rva = (resolveIn sections rva.toNat).map Nat.cast := by
  have hfind : sections.find? (·.containsWord rva) = sections.find? (·.contains rva.toNat) := by
    rw [← Array.find?_toList, ← Array.find?_toList]
    exact List.find?_congr fun s hs =>
      Section.containsWord_eq (h s (Array.mem_toList_iff.mp hs)) rva
  rw [resolveWord, resolveIn, hfind]
  cases hs : sections.find? (·.contains rva.toNat) with
  | none => rfl
  | some s =>
    obtain ⟨-, -, -, ⟨hle, -⟩, -⟩ := find?_eq_some_iff.mp hs
    exact congrArg Except.ok (Section.offsetWord_eq (h s (Array.mem_of_find?_eq_some hs)) hle)

namespace File

/-! ## Headers with every read checked -/

/-- The directories with every word checked. -/
def directoriesStrict (o : Region) (start count : Nat) : Strict (List Directory) :=
  (List.range count).mapM fun i => do
    let rva ← liftM (o.u32 (start + i * 8 : Nat))
    let size ← liftM (o.u32 (start + i * 8 + 4 : Nat))
    return ⟨rva, size⟩

/-- The headers with every read checked. -/
def readHeadersStrict (g : Region) : Strict Headers := do
  if (g.u16 0).toOption ≠ some 0x5A4D then throw (.format .pe 0 "missing MZ signature")
  let .ok start := g.u32 headerPointer
    | throw (.bounds .pe headerPointer "DOS header truncated")
  if (g.u32 start).toOption ≠ some 0x4550 then throw (.format .pe start "missing PE signature")
  let header := start + 4
  let .ok h := g.sub header headerSize
    | throw (.bounds .pe header "COFF header truncated")
  let machine ← liftM (h.u16 0)
  let sectionCount ← liftM (h.u16 2)
  let optSize ← liftM (h.u16 16)
  let characteristics ← liftM (h.u16 18)
  let opt := header + headerSize
  let .ok o := g.sub opt optSize
    | throw (.bounds .pe opt "optional header truncated")
  let .ok magic := o.u16 0
    | throw (.bounds .pe opt "optional header is empty")
  let some (countAt, dirsAt) := directoryOffsets? magic
    | throw (.format .pe opt ("unknown optional header magic 0x" ++ hex magic : String))
  let .ok count := o.u32 countAt
    | throw (.bounds .pe (opt + countAt : Nat) "data directory count truncated")
  if dirsAt + count * 8 > optSize then
    throw (.bounds .pe (opt + countAt : Nat)
      s!"{count} data directories exceed optional header size {optSize}")
  let directories ← directoriesStrict o dirsAt count
  let table := opt + optSize
  let .ok t := g.sub table (sectionCount * Section.entrySize : Nat)
    | throw (.bounds .pe table "section table truncated")
  let sections ← liftM ((Section.tableInOrder sectionCount).result t.reader)
  return {
    machine
    characteristics
    magic
    directories := directories.toArray
    sections := sections.toArray }

/-- The runtime header read field by field. -/
def runtimeInOrder : Read RuntimeHeader := do
  let size ← Read.u32
  let major ← Read.u16
  let minor ← Read.u16
  let metadataRva ← Read.u32
  let metadataSize ← Read.u32
  let flags ← Read.u32
  let entryPoint ← Read.u32
  let resourcesRva ← Read.u32
  let resourcesSize ← Read.u32
  let strongNameRva ← Read.u32
  let strongNameSize ← Read.u32
  return {
    size
    major
    minor
    metadata := ⟨metadataRva, metadataSize⟩
    flags
    entryPoint
    resources := ⟨resourcesRva, resourcesSize⟩
    strongName := ⟨strongNameRva, strongNameSize⟩ }

/-- The runtime header with every read checked. -/
def readRuntimeStrict (g : Region) (h : Headers) : Strict RuntimeHeader := do
  let dir := h.directories.getD runtimeDirectory ⟨0, 0⟩
  if dir.rva = 0 then throw (.format .pe Fault.noOffset "image has no CLI header")
  let off ← complete (resolveIn h.sections dir.rva)
  let .ok r := g.sub off runtimeSize
    | throw (.bounds .pe off "CLI header truncated")
  let runtime ← liftM (runtimeInOrder.result r.reader)
  if runtime.metadata.rva = 0 then
    throw (.format .pe (off + 8 : Nat) "CLI header has no metadata directory")
  return runtime

/-- The file with every read checked. -/
def parseStrict (data : ByteArray) : Strict File := do
  let g := Region.whole data
  let h ← readHeadersStrict g
  let runtime ← readRuntimeStrict g h
  return {
    region := g
    machine := h.machine
    characteristics := h.characteristics
    magic := h.magic
    directories := h.directories
    sections := h.sections
    runtime }

/-- Directories that lie inside miss no word. -/
theorem directoriesStrict_eq {o : Region} {start count : Nat} (h : start + count * 8 ≤ o.len) :
    directoriesStrict o start count = complete (.ok ((List.range count).map fun i =>
      Directory.mk (o.wordD 4 (start + i * 8)) (o.wordD 4 (start + i * 8 + 4)))) := by
  rw [directoriesStrict, Strict.mapM_complete (f := fun i => .ok (Directory.mk
    (o.wordD 4 (start + i * 8)) (o.wordD 4 (start + i * 8 + 4))))]
  · congr 1
    apply Except.mapM_eq_ok
    rw [List.forall₂_map_right_iff, List.forall₂_same]
    exact fun _ _ => rfl
  · intro i hi
    have hi := List.mem_range.mp hi
    rw [Strict.lift_ok (Region.u32_inside (start + i * 8) (by omega)),
      Strict.lift_ok (Region.u32_inside (start + i * 8 + 4) (by omega))]
    rfl

theorem runtimeInOrder_eq {r : Region} (h : r.len = runtimeSize) :
    runtimeInOrder.result r.reader = .ok (decodeRuntime r) := by
  rw [runtimeSize] at h
  apply Read.result_ok
  simp only [runtimeInOrder, Read.u32, Read.u16]
  rw [Region.reader, Read.bind_word (by omega), Read.bind_word (by omega),
    Read.bind_word (by omega), Read.bind_word (by omega), Read.bind_word (by omega),
    Read.bind_word (by omega), Read.bind_word (by omega), Read.bind_word (by omega),
    Read.bind_word (by omega), Read.bind_word (by omega), Read.bind_word (by omega)]
  rfl

theorem readHeadersStrict_eq (g : Region) : readHeadersStrict g = complete (readHeaders g) := by
  unfold readHeadersStrict readHeaders
  by_cases hmark : (g.u16 0).toOption ≠ some 0x5A4D
  · rw [if_pos hmark, if_pos hmark]
    rfl
  rw [if_neg hmark, if_neg hmark]
  dsimp only
  rcases hpointer : g.u32 headerPointer with e | start
  · rfl
  dsimp only
  by_cases hsig : (g.u32 start).toOption ≠ some 0x4550
  · rw [if_pos hsig, if_pos hsig]
    rfl
  rw [if_neg hsig, if_neg hsig]
  rcases hh : g.sub (start + 4 : Nat) headerSize with e | h
  · rfl
  -- The window of the header has room for its four words.
  have hlen : h.len = headerSize := (Region.sub_ok hh).2.2.2.2.2
  rw [headerSize] at hlen
  have hmachine : h.u16 0 = .ok (h.wordD 2 0) := Region.u16_inside 0 (by omega)
  have hcount : h.u16 2 = .ok (h.wordD 2 2) := Region.u16_inside 2 (by omega)
  have hoptional : h.u16 16 = .ok (h.wordD 2 16) := Region.u16_inside 16 (by omega)
  have hflags : h.u16 18 = .ok (h.wordD 2 18) := Region.u16_inside 18 (by omega)
  dsimp only
  rw [Strict.lift_ok hmachine, Strict.lift_ok hcount, Strict.lift_ok hoptional,
    Strict.lift_ok hflags]
  simp only [Strict.complete_ok_bind]
  rcases ho : g.sub (start + 4 + headerSize : Nat) (h.wordD 2 16) with e | o
  · rfl
  have hroom : o.len = h.wordD 2 16 := (Region.sub_ok ho).2.2.2.2.2
  dsimp only
  rcases hmagic : o.u16 0 with e | magic
  · rfl
  dsimp only
  rcases hoffsets : directoryOffsets? magic with - | ⟨countAt, dirsAt⟩
  · rfl
  dsimp only
  rcases hdirs : o.u32 countAt with e | count
  · rfl
  dsimp only
  by_cases hfits : dirsAt + count * 8 > h.wordD 2 16
  · rw [if_pos hfits, if_pos hfits]
    rfl
  rw [if_neg hfits, if_neg hfits, directoriesStrict_eq (by omega), Strict.complete_ok_bind]
  rcases ht : g.sub (start + 4 + headerSize + h.wordD 2 16 : Nat)
      (h.wordD 2 2 * Section.entrySize : Nat) with e | t
  · rfl
  have htable : t.len = h.wordD 2 2 * Section.entrySize := (Region.sub_ok ht).2.2.2.2.2
  dsimp only
  rw [Strict.lift_ok (Section.tableInOrder_inside htable.ge), Strict.complete_ok_bind]
  rfl

/-- **No read of the runtime header fails** once its window was cut. -/
theorem readRuntimeStrict_eq (g : Region) (h : Headers) :
    readRuntimeStrict g h = complete (readRuntime g h) := by
  unfold readRuntimeStrict readRuntime
  by_cases hzero : (h.directories.getD runtimeDirectory ⟨0, 0⟩).rva = 0
  · rw [if_pos hzero, if_pos hzero]
    rfl
  rw [if_neg hzero, if_neg hzero, ← Strict.complete_bind]
  refine bind_congr fun off => ?_
  rcases hr : g.sub off runtimeSize with e | r
  · rfl
  have hlen : r.len = runtimeSize := (Region.sub_ok hr).2.2.2.2.2
  dsimp only
  rw [Strict.lift_ok (runtimeInOrder_eq hlen), Strict.complete_ok_bind]
  by_cases hrva : (decodeRuntime r).metadata.rva = 0
  · rw [if_pos hrva, if_pos hrva]
    rfl
  · rw [if_neg hrva, if_neg hrva]
    rfl

/-- **No read of a file that is passed over fails.** -/
theorem parseStrict_eq (data : ByteArray) : parseStrict data = complete (parse data) := by
  rw [parseStrict, parse, readHeadersStrict_eq, ← Strict.complete_bind]
  refine bind_congr fun h => ?_
  rw [readRuntimeStrict_eq, ← Strict.complete_bind]
  rfl

/-! ## What was parsed -/

theorem readHeaders_sections {g : Region} {hd : Headers} (h : readHeaders g = .ok hd) :
    ∃ (t : Region) (n : Nat), hd.sections.toList
      = (List.range n).map fun i => Section.read t (i * Section.entrySize) := by
  unfold readHeaders at h
  dsimp only at h
  -- Every way out but the last is a fault.
  repeat' split at h
  all_goals cases h
  exact ⟨_, _, rfl⟩

theorem parse_sections {data : ByteArray} {f : File} (h : parse data = .ok f) :
    ∀ s ∈ f.sections, s.Narrow := by
  obtain ⟨hd, hheaders, h⟩ := Except.bind_ok h
  obtain ⟨runtime, -, h⟩ := Except.bind_ok h
  cases h
  obtain ⟨t, n, hlist⟩ := readHeaders_sections hheaders
  intro s hs
  rw [← Array.mem_toList_iff, hlist, List.mem_map] at hs
  obtain ⟨i, -, rfl⟩ := hs
  exact Section.narrow_read t _

/-! ## Addresses and regions -/

section Regions

variable {data : ByteArray} {f : File} {rva off : Nat} {length : Int} {w : Region}

theorem resolve_ok_iff :
    f.resolve rva = .ok off ↔ ∃ s, FirstCovering f.sections rva s ∧ off = s.fileOffset rva := by
  rw [resolve, resolveIn]
  cases hfind : f.sections.find? (·.contains rva) with
  | none =>
    have hnone : ¬ ∃ s, FirstCovering f.sections rva s ∧ off = s.fileOffset rva := by
      rintro ⟨s, hs, -⟩
      rw [← find?_eq_some_iff, hfind] at hs
      cases hs
    simp [hnone]
  | some s =>
    have hs := find?_eq_some_iff.mp hfind
    constructor
    · intro h
      exact ⟨s, hs, (Except.ok.inj h).symm⟩
    · rintro ⟨t, ht, rfl⟩
      rw [hs.unique ht]

/-- A window at an address is found where a section covers the address and the cut succeeds. -/
theorem located_ok_iff {cut : Nat → Except ByteFault Region} {fault : Nat → Fault} :
    (do
      let off ← f.resolve rva
      match cut off with
      | .ok g => .ok g
      | .error _ => .error (fault off)) = Except.ok w
      ↔ ∃ s, FirstCovering f.sections rva s ∧ cut (s.fileOffset rva) = .ok w := by
  constructor
  · intro h
    obtain ⟨off, hoff, h⟩ := Except.bind_ok h
    obtain ⟨s, hs, rfl⟩ := resolve_ok_iff.mp hoff
    split at h
    · next hcut =>
      cases h
      exact ⟨s, hs, hcut⟩
    · cases h
  · rintro ⟨s, hs, hcut⟩
    rw [resolve_ok_iff.mpr ⟨s, hs, rfl⟩]
    simp only [bind, Except.bind, hcut]

theorem regionAt_ok_iff : f.regionAt rva length = .ok w ↔ ∃ s, FirstCovering f.sections rva s
    ∧ f.region.sub (s.fileOffset rva) length = .ok w := located_ok_iff

theorem regionFrom_ok_iff : f.regionFrom rva = .ok w ↔ ∃ s, FirstCovering f.sections rva s
    ∧ f.region.startingAt (s.fileOffset rva) = .ok w := located_ok_iff

/-- **A region at an address** is the bytes from its place on, if the file has them all. -/
theorem regionAt_iff_cuts (hregion : f.region = Region.whole data) :
    f.regionAt rva length = .ok w ↔ ∃ s, FirstCovering f.sections rva s ∧ 0 ≤ length
      ∧ s.fileOffset rva + length.toNat ≤ data.size
      ∧ w.Cuts data (s.fileOffset rva) length.toNat := by
  simp only [regionAt_ok_iff, hregion, Region.sub_ok_iff, Region.whole, Nat.zero_add]

/-- **The region from an address on** is the rest of the file. -/
theorem regionFrom_iff_cuts (hregion : f.region = Region.whole data) :
    f.regionFrom rva = .ok w ↔ ∃ s, FirstCovering f.sections rva s
      ∧ s.fileOffset rva ≤ data.size
      ∧ w.Cuts data (s.fileOffset rva) (data.size - s.fileOffset rva) := by
  simp only [regionFrom_ok_iff, hregion, Region.startingAt_ok_iff, Region.whole, Nat.zero_add]

theorem exists_regionAt_iff (hregion : f.region = Region.whole data) :
    (∃ w, f.regionAt rva length = .ok w) ↔ 0 ≤ length ∧ (∃ s ∈ f.sections, s.Covers rva)
      ∧ ∀ s, FirstCovering f.sections rva s → s.fileOffset rva + length.toNat ≤ data.size := by
  simp only [regionAt_iff_cuts hregion]
  constructor
  · rintro ⟨w, s, hs, hlength, hin, -⟩
    refine ⟨hlength, exists_firstCovering_iff.mp ⟨s, hs⟩, fun t ht => ?_⟩
    rwa [ht.unique hs]
  · rintro ⟨hlength, hsome, hin⟩
    obtain ⟨s, hs⟩ := exists_firstCovering_iff.mpr hsome
    obtain ⟨w, hw⟩ := Region.exists_cuts (hin s hs)
    exact ⟨w, s, hs, hlength, hin s hs, hw⟩

/-- The bytes of the rest start with those of every region at the address. -/
theorem regionFrom_of_regionAt (hregion : f.region = Region.whole data)
    (h : f.regionAt rva length = .ok w) :
    ∃ g, f.regionFrom rva = .ok g ∧ g.base = w.base ∧ w.toList <+: g.toList := by
  obtain ⟨s, hs, -, hin, hw⟩ := (regionAt_iff_cuts hregion).mp h
  obtain ⟨g, hg⟩ : ∃ g : Region, g.Cuts data (s.fileOffset rva) (data.size - s.fileOffset rva) :=
    Region.exists_cuts (by omega)
  refine ⟨g, (regionFrom_iff_cuts hregion).mpr ⟨s, hs, by omega, hg⟩, ?_, ?_⟩
  · rw [hg.base_eq, hw.base_eq]
  · rw [hg.toList_eq, hw.toList_eq]
    exact List.take_prefix_take_left (by omega)

end Regions

end File

/-- **Addresses resolve exactly.** In a file that was accepted no read fails that is passed over,
and the words of its sections give the same places as numbers do. A region at an address is there
if the length is not below zero, a section covers the address, and behind its place in the first
such section the file has that many bytes; these bytes are the region. The region from an address
on is there if the empty one is, and goes on to the end of the file. -/
theorem File.resolution_exact {data : ByteArray} {f : File} (h : File.parse data = .ok f) :
    File.parseStrict data = complete (.ok f)
      ∧ (∀ rva : UInt32, resolveWord f.sections rva = (f.resolve rva.toNat).map Nat.cast)
      ∧ ∀ rva : Nat,
        (∀ length : Int,
          ((∃ w, f.regionAt rva length = .ok w) ↔ 0 ≤ length ∧ (∃ s ∈ f.sections, s.Covers rva)
            ∧ ∀ s, FirstCovering f.sections rva s →
              s.fileOffset rva + length.toNat ≤ data.size)
          ∧ ∀ w, f.regionAt rva length = .ok w →
            (∀ s, FirstCovering f.sections rva s → w.base = s.fileOffset rva
              ∧ w.toList = (data.data.toList.drop (s.fileOffset rva)).take length.toNat)
            ∧ ∃ g, f.regionFrom rva = .ok g ∧ g.base = w.base ∧ w.toList <+: g.toList)
        ∧ ((∃ g, f.regionFrom rva = .ok g) ↔ ∃ w, f.regionAt rva 0 = .ok w)
        ∧ ∀ g, f.regionFrom rva = .ok g → ∀ s, FirstCovering f.sections rva s →
          g.base = s.fileOffset rva ∧ g.toList = data.data.toList.drop (s.fileOffset rva) := by
  have hregion := File.parse_region h
  refine ⟨by rw [File.parseStrict_eq, h], resolveWord_eq (File.parse_sections h), fun rva => ?_⟩
  refine ⟨fun length => ⟨File.exists_regionAt_iff hregion, fun w hw => ⟨fun s hs => ?_,
    File.regionFrom_of_regionAt hregion hw⟩⟩, ⟨?_, ?_⟩, fun g hg s hs => ?_⟩
  · obtain ⟨t, ht, -, -, hcuts⟩ := (File.regionAt_iff_cuts hregion).mp hw
    rw [hs.unique ht]
    exact ⟨hcuts.base_eq, hcuts.toList_eq⟩
  · rintro ⟨g, hg⟩
    obtain ⟨s, hs, hin, -⟩ := (File.regionFrom_iff_cuts hregion).mp hg
    obtain ⟨w, hw⟩ := Region.exists_cuts (n := 0) hin
    exact ⟨w, (File.regionAt_iff_cuts hregion).mpr ⟨s, hs, Int.le_refl 0, hin, hw⟩⟩
  · rintro ⟨w, hw⟩
    obtain ⟨g, hg, -⟩ := File.regionFrom_of_regionAt hregion hw
    exact ⟨g, hg⟩
  · obtain ⟨t, ht, hin, hcuts⟩ := (File.regionFrom_iff_cuts hregion).mp hg
    rw [hs.unique ht]
    refine ⟨hcuts.base_eq, ?_⟩
    have hsize : data.data.toList.length = data.size := Array.length_toList
    rw [hcuts.toList_eq, List.take_of_length_le (by rw [List.length_drop, hsize])]

/-- A file whose second section runs past the last address: it starts at `0xFFFFFF00` and covers
512 addresses. The first has no size in memory and counts with its 72 bytes in the file, which are
the runtime header. -/
def wrappingSection : List UInt8 :=
  leBytes 2 0x5A4D ++ zeroBytes 58 ++ leBytes 4 64
    ++ leBytes 4 0x4550 ++ leBytes 2 0x14C ++ leBytes 2 2 ++ zeroBytes 12 ++ leBytes 2 216
    ++ zeroBytes 2
    ++ leBytes 2 0x10B ++ zeroBytes 90 ++ leBytes 4 15 ++ zeroBytes 112 ++ leBytes 4 0x1000
    ++ leBytes 4 72
    ++ zeroBytes 12 ++ leBytes 4 0x1000 ++ leBytes 4 72 ++ leBytes 4 384 ++ zeroBytes 16
    ++ zeroBytes 8 ++ leBytes 4 0x200 ++ leBytes 4 0xFFFFFF00 ++ leBytes 4 16 ++ leBytes 4 384
    ++ zeroBytes 16
    ++ zeroBytes 8 ++ leBytes 4 0x1000 ++ zeroBytes 60

theorem File.resolution_exact_wrappingSection :
    ∃ f, File.parse ⟨wrappingSection.toArray⟩ = .ok f
      ∧ (∃ w, f.regionAt 0xFFFFFF08 4 = .ok w ∧ w.base = 392 ∧ w.toList = [0x00, 0x10, 0, 0])
      ∧ ¬ ∃ w, f.regionAt 0x1048 0 = .ok w := by
  have hsample : ((File.parse ⟨wrappingSection.toArray⟩).toOption.any fun f =>
      (f.sections.find? (·.contains 0xFFFFFF08)).map (·.fileOffset 0xFFFFFF08) = some 392
        ∧ f.sections.find? (·.contains 0x1048) = none) = true := by
    decide +kernel
  cases hparse : File.parse ⟨wrappingSection.toArray⟩ with
  | error e =>
    rw [hparse] at hsample
    cases hsample
  | ok f =>
    rw [hparse, Except.toOption, Option.any_some, decide_eq_true_eq, Option.map_eq_some_iff]
      at hsample
    obtain ⟨⟨s, hs, hoff⟩, hnone⟩ := hsample
    obtain ⟨-, -, hexact⟩ := File.resolution_exact hparse
    have hfirst : FirstCovering f.sections 0xFFFFFF08 s := find?_eq_some_iff.mp hs
    have hsize : ByteArray.size ⟨wrappingSection.toArray⟩ = 456 := by decide +kernel
    obtain ⟨w, hw⟩ := ((hexact 0xFFFFFF08).1 4).1.mpr
      ⟨by decide, exists_firstCovering_iff.mp ⟨s, hfirst⟩, fun t ht => by
        rw [ht.unique hfirst, hoff, hsize]
        decide⟩
    obtain ⟨hbase, hlist⟩ := (((hexact 0xFFFFFF08).1 4).2 w hw).1 s hfirst
    refine ⟨f, rfl, ⟨w, hw, by rw [hbase, hoff], ?_⟩, fun hsome => ?_⟩
    · rw [hlist, hoff]
      decide +kernel
    · obtain ⟨-, hcovers, -⟩ := ((hexact 0x1048).1 0).1.mp hsome
      obtain ⟨t, ht⟩ := exists_firstCovering_iff.mpr hcovers
      rw [← find?_eq_some_iff, hnone] at ht
      cases ht

end Portable

end ManagedImage
