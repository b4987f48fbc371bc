/-
The metadata root of an assembled image, read back.

The root is a fixed prelude, the version field, and one header a stream; the
headers carry offsets that the assembler computed before it wrote them. One
header is the step: `readHeaders_cons` reads the header in front and cuts the
window it names, and the rest of the headers is the same problem four bytes
aligned further on. `read_rootBytes` is about the part in front of the headers, for
any version and any streams; with five steps behind it, it gives
`read_metadataRoot`, where each stream is exactly the bytes the builder had for it.
-/
import ManagedImage.Proofs.Assemble.Container
import ManagedImage.Metadata.Image

set_option autoImplicit false

namespace ManagedImage.Assemble.Builder

/-! ## One stream header -/

theorem ofList_toUTF8 (s : String) : Text.ofList s.toUTF8.data.toList = Text.ofString s := by
  rw [Text.ofList, Text.ofString]
  congr 1
  apply ByteArray.ext
  rw [List.data_toByteArray]

/-- A stream header read back: its offset, its size, its name, and the position behind the
padded name. -/
theorem readHeader_holds {r : Reader} {name : String} {offset size : Nat}
    (hne : ∀ b ∈ name.toUTF8.data.toList, b ≠ 0)
    (h : r.region.Holds r.offset (leBytes 4 offset ++ leBytes 4 size ++ nameBytes name))
    (ho : offset < 0x100000000) (hs : size < 0x100000000)
    (halign : r.offset % 4 = 0) (hsmall : r.region.len < 0x20000000) :
    Streams.readHeader r
      = .ok ⟨Text.ofString name, offset, size⟩ (r.advance (8 + (nameBytes name).length)) := by
  have hfits := h.fits
  rw [nameBytes, padTo] at h
  simp only [List.length_append, length_leBytes] at hfits
  have hoffset := Read.word_holds h.left.left
  have hsize := Read.word_holds (r := r.advance 4) h.left.right
  have hname := h.right.left
  simp only [List.length_append, length_leBytes] at hname
  have htext := Read.zeroTerminated_holds (r := (r.advance 4).advance 4) hne
    (by simpa only [Reader.advance, Nat.add_assoc, Nat.reduceAdd] using hname)
  have hlen : (nameBytes name).length = roundUp4 (name.toUTF8.data.toList.length + 1) := by
    rw [nameBytes, length_padTo, List.length_append, List.length_singleton, roundUp4]
    omega
  rw [hlen] at hfits ⊢
  have hpad := Read.align_four
    (r := ((r.advance 4).advance 4).seekTo
      (((r.advance 4).advance 4).offset + name.toUTF8.data.toList.length + 1))
    (by simp only [Reader.seekTo, Reader.advance]; rw [roundUp4] at hfits; omega)
  rw [pow_256_four, Nat.mod_eq_of_lt ho] at hoffset
  rw [pow_256_four, Nat.mod_eq_of_lt hs] at hsize
  simp only [Streams.readHeader, Read.u32, EStateM.bind_apply, hoffset, hsize, htext, hpad,
    EStateM.pure_apply, ofList_toUTF8]
  congr 1
  simp only [Reader.seekTo, Reader.advance, roundUp4, Reader.mk.injEq, true_and]
  omega

theorem ne_zero_of_all {bs : List UInt8} (h : bs.all (fun b => b != 0) = true) :
    ∀ b ∈ bs, b ≠ 0 := fun b hb => bne_iff_ne.mp (List.all_eq_true.mp h b hb)

/-- **One step over the stream headers.** The header in front names a window that is exactly
the stream, and the rest is read from behind it with that window bound. -/
theorem readHeaders_cons {root : Region} {r : Reader} {name : String} {data : List UInt8}
    {rest : List (String × List UInt8)} {offset : Nat}
    (hregion : r.region = root) (hne : ∀ b ∈ name.toUTF8.data.toList, b ≠ 0)
    (hheaders : root.Holds r.offset (streamHeaders offset ((name, data) :: rest)))
    (hdata : root.Holds offset data) (halign : r.offset % 4 = 0) (hsmall : root.len < 0x20000000) :
    ∃ w : Region, w.Is data
      ∧ (r.advance (8 + (nameBytes name).length)).region = root
      ∧ (r.advance (8 + (nameBytes name).length)).offset % 4 = 0
      ∧ root.Holds (r.advance (8 + (nameBytes name).length)).offset
          (streamHeaders (offset + data.length) rest)
      ∧ ∀ (left i : Nat) (s s' : Streams), s.bind? (Text.ofString name) w = some s' →
          Streams.readHeaders root (left + 1) i r s
            = Streams.readHeaders root left (i + 1) (r.advance (8 + (nameBytes name).length))
                { s' with headers := s.headers ++ [⟨Text.ofString name, offset, data.length⟩] } := by
  have hfits := hdata.fits
  rw [streamHeaders] at hheaders
  have hread := readHeader_holds (r := r) hne (by rw [hregion]; exact hheaders.left) (by omega)
    (by omega) halign (by rw [hregion]; exact hsmall)
  obtain ⟨w, hsub, hiw⟩ := hdata.sub
  refine ⟨w, hiw, hregion, ?_, ?_, ?_⟩
  · have hpad := length_padTo_four (name.toUTF8.data.toList ++ [0])
    rw [← nameBytes] at hpad
    simp only [Reader.advance]
    omega
  · have hrest := hheaders.right
    simp only [List.length_append, length_leBytes, Nat.reduceAdd] at hrest
    exact hrest
  · intro left i s s' hbind
    simp only [Streams.readHeaders, hread, hsub, hbind]

/-! ## A root of any version and streams -/

/-- Where the first stream starts behind a version field and the headers of the streams. -/
def streamsOffsetOf (field : List UInt8) (streams : List (String × List UInt8)) : Nat :=
  16 + field.length + 4 + (streams.map fun (name, _) => 8 + (nameBytes name).length).sum

/-- A root that declares so many bytes of version and has a field for them, with some streams. -/
def rootBytes (declared : Nat) (field : List UInt8) (streams : List (String × List UInt8)) :
    List UInt8 :=
  leBytes 4 0x424A5342 ++ leBytes 2 1 ++ leBytes 2 1 ++ leBytes 4 0 ++ leBytes 4 declared ++ field
    ++ leBytes 2 0 ++ leBytes 2 streams.length
    ++ streamHeaders (streamsOffsetOf field streams) streams ++ streams.flatMap (·.2)

theorem length_streamHeaders : ∀ (streams : List (String × List UInt8)) (offset : Nat),
    (streamHeaders offset streams).length
      = (streams.map fun (name, _) => 8 + (nameBytes name).length).sum := by
  intro streams
  induction streams with
  | nil => intro _; rfl
  | cons head rest ih =>
    intro offset
    simp only [streamHeaders, List.length_append, length_leBytes, ih, List.map_cons, List.sum_cons]

theorem length_rootBytes (declared : Nat) (field : List UInt8)
    (streams : List (String × List UInt8)) : (rootBytes declared field streams).length
      = streamsOffsetOf field streams + (streams.flatMap (·.2)).length := by
  simp only [rootBytes, streamsOffsetOf, List.length_append, length_leBytes, length_streamHeaders]

section AnyRoot

variable {g : Region} {declared : Nat} {field : List UInt8} {streams : List (String × List UInt8)}

/-- The headers and the streams of a root lie behind its version field. -/
theorem rootBytes_streams (hg : g.Is (rootBytes declared field streams)) :
    g.Holds (16 + field.length + 4) (streamHeaders (streamsOffsetOf field streams) streams)
      ∧ g.Holds (streamsOffsetOf field streams) (streams.flatMap (·.2)) := by
  have hh := hg.holds
  simp only [rootBytes, Region.holds_append, List.length_append, length_leBytes, Nat.zero_add,
    Nat.reduceAdd, and_assoc, length_streamHeaders] at hh
  obtain ⟨-, -, -, -, -, -, -, -, hheaders, hdata⟩ := hh
  exact ⟨hheaders, hdata⟩

/-- The word that declares the length of the version. -/
theorem rootBytes_declared (hg : g.Is (rootBytes declared field streams))
    (hdeclared : declared < 0x100000000) : g.wordD 4 12 = declared := by
  have hh := hg.holds
  simp only [rootBytes, Region.holds_append, List.length_append, length_leBytes, Nat.zero_add,
    Nat.reduceAdd, and_assoc] at hh
  obtain ⟨-, -, -, -, hword, -⟩ := hh
  have hw := hword.wordD_leBytes
  rwa [pow_256_four, Nat.mod_eq_of_lt hdeclared] at hw

/-- **A root read back**, if its field is as long as the reader takes the declared length to be,
and its headers are read. -/
theorem read_rootBytes (hg : g.Is (rootBytes declared field streams))
    (hdeclared : declared < 0x100000000) (hfield : field.length = Root.versionLength declared)
    (hcount : streams.length < 0x10000) {s : Streams}
    (hstreams : Streams.readHeaders g streams.length 0 (g.reader.seekTo (16 + field.length + 4))
      .none = .ok s) (htables : ¬ s.tables.len = 0) :
    Root.read g = .ok ⟨Text.ofList (Read.trimZeros field), s⟩ := by
  have hh := hg.holds
  simp only [rootBytes, Region.holds_append, List.length_append, length_leBytes, Nat.zero_add,
    Nat.reduceAdd, and_assoc] at hh
  obtain ⟨hmagic, -, -, -, hword, hversion, hflags, hnumber, -⟩ := hh
  have hw0 : g.u32 0 = .ok Root.magic := hmagic.word_leBytes
  have hw12 : g.u32 12 = .ok declared := by
    have hw := hword.word_leBytes
    rwa [pow_256_four, Nat.mod_eq_of_lt hdeclared] at hw
  have hread := Read.fixedText_holds (r := g.reader.seekTo 16) hversion
  have hskip : Read.skip 2 ((g.reader.seekTo 16).advance field.length)
      = .ok () (((g.reader.seekTo 16).advance field.length).advance 2) := by
    have hskip := Read.skip_holds (r := (g.reader.seekTo 16).advance field.length) hflags
    rwa [length_leBytes] at hskip
  have hnumber := Read.word_holds
    (r := ((g.reader.seekTo 16).advance field.length).advance 2) hnumber
  have hpower : 256 ^ 2 = 0x10000 := by decide
  rw [hpower, Nat.mod_eq_of_lt hcount] at hnumber
  have hrest : Streams.readHeaders g streams.length 0
      ((((g.reader.seekTo 16).advance field.length).advance 2).advance 2) .none = .ok s := hstreams
  simp only [Root.read, bind, Except.bind, hw0, hw12, Except.toOption, ne_eq, not_true, if_false,
    ← hfield, hread, hskip, Read.u16, hnumber, hrest, htables]
  rfl

end AnyRoot

/-! ## The whole root -/

/-- The padded version field. -/
def versionField (b : Builder) : List UInt8 := padTo 4 (b.version.toList ++ [0])

/-- Where the first stream starts. -/
def streamsOffset (b : Builder) : Nat :=
  16 + b.versionField.length + 4
    + (b.streams.map fun (name, _) => 8 + (nameBytes name).length).sum

theorem metadataRoot_eq (b : Builder) :
    b.metadataRoot = leBytes 4 0x424A5342 ++ leBytes 2 1 ++ leBytes 2 1 ++ leBytes 4 0
      ++ leBytes 4 b.versionField.length ++ b.versionField ++ leBytes 2 0 ++ leBytes 2 5
      ++ streamHeaders b.streamsOffset b.streams ++ b.streams.flatMap (·.2) := rfl

/-- What is read of a metadata root: every stream is the bytes the builder had for it. -/
structure RootStreams (b : Builder) (s : Streams) : Prop where
  tables : s.tables.Is (padTo 4 b.tableData)
  strings : s.strings.Is (padTo 4 b.strings.data.toList)
  literals : s.literals.Is (padTo 4 b.literals.data.toList)
  guids : s.guids.Is b.guids.data.toList
  blobs : s.blobs.Is (padTo 4 b.blobs.data.toList)

theorem readHeaders_streams {b : Builder} {root : Region} {r : Reader} (hregion : r.region = root)
    (hheaders : root.Holds r.offset (streamHeaders b.streamsOffset b.streams))
    (hdata : root.Holds b.streamsOffset (b.streams.flatMap (·.2)))
    (halign : r.offset % 4 = 0) (hsmall : root.len < 0x20000000) :
    ∃ s : Streams, Streams.readHeaders root 5 0 r .none = .ok s ∧ RootStreams b s := by
  simp only [streams, List.flatMap_cons, List.flatMap_nil, List.append_nil] at hheaders hdata
  -- The five streams one behind the other: each step leaves the rest of headers and data.
  have hd1 := hdata.right
  have hd2 := hd1.right
  have hd3 := hd2.right
  have hd4 := hd3.right
  obtain ⟨w0, hw0, hr1, ha1, hh1, hs0⟩ :=
    readHeaders_cons hregion (ne_zero_of_all (by decide)) hheaders hdata.left halign hsmall
  obtain ⟨w1, hw1, hr2, ha2, hh2, hs1⟩ :=
    readHeaders_cons hr1 (ne_zero_of_all (by decide)) hh1 hd1.left ha1 hsmall
  obtain ⟨w2, hw2, hr3, ha3, hh3, hs2⟩ :=
    readHeaders_cons hr2 (ne_zero_of_all (by decide)) hh2 hd2.left ha2 hsmall
  obtain ⟨w3, hw3, hr4, ha4, hh4, hs3⟩ :=
    readHeaders_cons hr3 (ne_zero_of_all (by decide)) hh3 hd3.left ha3 hsmall
  obtain ⟨w4, hw4, -, -, -, hs4⟩ :=
    readHeaders_cons hr4 (ne_zero_of_all (by decide)) hh4 hd4 ha4 hsmall
  rw [hs0 4 0 _ _ rfl, hs1 3 1 _ _ rfl, hs2 2 2 _ _ rfl, hs3 1 3 _ _ rfl, hs4 0 4 _ _ rfl]
  exact ⟨_, rfl, hw0, hw1, hw2, hw3, hw4⟩

/-- Rounding up a length that is a multiple of four, and small, leaves it as it is. -/
theorem versionLength_aligned {n : Nat} (h4 : n % 4 = 0) (hn : n < 0x20000000) :
    Root.versionLength n = n := by
  rw [Root.versionLength, Nat.mod_eq_of_lt (by omega)]
  omega

theorem length_tableData (b : Builder) : TableHead.size ≤ b.tableData.length := by
  simp only [tableData, List.length_append, length_leBytes, TableHead.size]
  omega

/-- **The root read back.** A region that is the metadata root of a builder parses, and its
streams are the builder's. -/
theorem read_metadataRoot {b : Builder} {g : Region} (hg : g.Is b.metadataRoot)
    (hsmall : g.len < 0x20000000) : ∃ root : Root, Root.read g = .ok root
      ∧ RootStreams b root.streams := by
  have hroot : g.Is (rootBytes b.versionField.length b.versionField b.streams) := hg
  obtain ⟨hheaders, hdata⟩ := rootBytes_streams hroot
  have hvfits := hheaders.fits
  have halign : b.versionField.length % 4 = 0 := length_padTo_four _
  obtain ⟨s, hstreams, hs⟩ := readHeaders_streams
    (show (g.reader.seekTo (16 + b.versionField.length + 4)).region = g from rfl)
    hheaders hdata (by simp only [Reader.seekTo]; omega) hsmall
  -- A root without a table stream would be refused.
  have htables : ¬ s.tables.len = 0 := by
    have hlen := length_le_padTo 4 b.tableData
    have htd := b.length_tableData
    rw [TableHead.size] at htd
    rw [hs.tables.len_eq]
    omega
  -- The declared length of the version is rounded up by the reader, and was so by the writer.
  have hlength := versionLength_aligned halign (by omega)
  have hcount : b.streams.length < 0x10000 := show 5 < 0x10000 by decide
  exact ⟨_, read_rootBytes hroot (by omega) hlength.symm hcount hstreams htables, hs⟩

end ManagedImage.Assemble.Builder
