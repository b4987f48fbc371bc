/-
The streams that a metadata root declares.

The root is read header by header, and each header that is accepted has named a
window of the root and put it in the place of its name. One header is the step
(`readHeaders_succ_ok`); what binding does to every place is said once
(`bind?_ok`), and so each place holds the window of the last header of its name
(`Follows`), for any number and order of headers. Only the mark for optimised
tables is not a place: it is set and never taken back.

The other run over the headers is about the bytes: where the first one stands,
that each stands behind the one before it, and that the window it names ends
inside the root. The version in front of them is skipped by its declared length
rounded up in 32 bits, which is the length rounded up unless it is one of the
three largest (`versionLength_eq_iff`).
-/
import ManagedImage.Proofs.Bytes.Window
import ManagedImage.Proofs.Assemble.Agreement

set_option autoImplicit false

namespace ManagedImage

/-! ## The last header of a name -/

namespace Streams

/-- The last of the headers that has one of the names. -/
def lastNamed? (names : List Text) (headers : List StreamHeader) : Option StreamHeader :=
  headers.reverse.find? fun h => h.name ∈ names

/-- The window is the one that the last header with one of the names declares; it is empty if there
is no such header. -/
def IsLast (root : Region) (names : List Text) (headers : List StreamHeader) (data : Region) :
    Prop :=
  match lastNamed? names headers with
  | some h => root.sub h.offset h.size = .ok data
  | .none => data = .empty

/-- The names of streams that hold tables. -/
def tableNames : List Text := ["#~", "#-"]

/-- Every place holds the stream of the last header of its name, and the mark for optimised tables
is set if there was one. -/
structure Follows (root : Region) (s : Streams) : Prop where
  tables : IsLast root tableNames s.headers s.tables
  strings : IsLast root ["#Strings"] s.headers s.strings
  literals : IsLast root ["#US"] s.headers s.literals
  guids : IsLast root ["#GUID"] s.headers s.guids
  blobs : IsLast root ["#Blob"] s.headers s.blobs
  compressed : s.compressed = s.headers.any (·.name = "#~")

variable {root : Region} {names : List Text} {headers : List StreamHeader} {h : StreamHeader}

theorem lastNamed?_concat : lastNamed? names (headers ++ [h])
    = if h.name ∈ names then some h else lastNamed? names headers := by
  rw [lastNamed?, List.reverse_append, List.reverse_singleton, List.singleton_append,
    List.find?_cons]
  by_cases hmem : h.name ∈ names
  · rw [if_pos hmem, decide_eq_true hmem]
  · rw [if_neg hmem, decide_eq_false hmem]
    rfl

theorem lastNamed?_mem (hlast : lastNamed? names headers = some h) :
    h ∈ headers ∧ h.name ∈ names := by
  have hname := List.find?_some hlast
  rw [decide_eq_true_eq] at hname
  exact ⟨List.mem_reverse.mp (List.mem_of_find?_eq_some hlast), hname⟩

/-- One more header takes the place of its own names and leaves the others. -/
theorem IsLast.concat {old data : Region} (hold : IsLast root names headers old)
    (hsub : root.sub h.offset h.size = .ok data) :
    IsLast root names (headers ++ [h]) (if h.name ∈ names then data else old) := by
  rw [IsLast, lastNamed?_concat]
  by_cases hmem : h.name ∈ names
  · rw [if_pos hmem, if_pos hmem]
    exact hsub
  · rw [if_neg hmem, if_neg hmem]
    exact hold

theorem IsLast.len_le {data : Region} (hdata : IsLast root names headers data) :
    data.len ≤ root.len := by
  unfold IsLast at hdata
  split at hdata
  · obtain ⟨-, -, hin, -, -, hlen⟩ := Region.sub_ok hdata
    omega
  · rw [hdata]
    exact Nat.zero_le _

/-! ## One header -/

/-- **What binding does.** The window is put in the place of its name, and no other place moves. -/
theorem bind?_ok {s s' : Streams} {name : Text} {data : Region}
    (hbind : s.bind? name data = some s') :
    s'.headers = s.headers
      ∧ s'.tables = (if name ∈ tableNames then data else s.tables)
      ∧ s'.strings = (if name ∈ (["#Strings"] : List Text) then data else s.strings)
      ∧ s'.literals = (if name ∈ (["#US"] : List Text) then data else s.literals)
      ∧ s'.guids = (if name ∈ (["#GUID"] : List Text) then data else s.guids)
      ∧ s'.blobs = (if name ∈ (["#Blob"] : List Text) then data else s.blobs)
      ∧ s'.compressed = (decide (name = "#~") || s.compressed) := by
  unfold bind? at hbind
  repeat' split at hbind
  -- Which places a name stands for is decided name by name; behind the last name nothing is bound.
  any_goals cases hbind
  all_goals
    subst_vars
    exact ⟨rfl, rfl, rfl, rfl, rfl, rfl, rfl⟩

theorem readHeaders_succ_ok {left i : Nat} {r : Reader} {s s' : Streams}
    (hrun : readHeaders root (left + 1) i r s = .ok s') :
    ∃ (h : StreamHeader) (r₁ : Reader) (data : Region) (s₁ : Streams),
      readHeader r = .ok h r₁ ∧ root.sub h.offset h.size = .ok data ∧ s.bind? h.name data = some s₁
        ∧ readHeaders root left (i + 1) r₁ { s₁ with headers := s.headers ++ [h] } = .ok s' := by
  unfold readHeaders at hrun
  dsimp only at hrun
  split at hrun
  · cases hrun
  · next h r₁ hread =>
    split at hrun
    · next data hsub =>
      split at hrun
      · next s₁ hbind => exact ⟨h, r₁, data, s₁, hread, hsub, hbind, hrun⟩
      · cases hrun
    · cases hrun

theorem follows_none (root : Region) : Follows root none := ⟨rfl, rfl, rfl, rfl, rfl, rfl⟩

theorem Follows.concat {s s₁ : Streams} {data : Region} (hs : s.Follows root)
    (hsub : root.sub h.offset h.size = .ok data) (hbind : s.bind? h.name data = some s₁) :
    Follows root { s₁ with headers := s.headers ++ [h] } := by
  obtain ⟨-, htables, hstrings, hliterals, hguids, hblobs, hcompressed⟩ := bind?_ok hbind
  constructor
  · rw [htables]
    exact hs.tables.concat hsub
  · rw [hstrings]
    exact hs.strings.concat hsub
  · rw [hliterals]
    exact hs.literals.concat hsub
  · rw [hguids]
    exact hs.guids.concat hsub
  · rw [hblobs]
    exact hs.blobs.concat hsub
  · rw [hcompressed, hs.compressed, List.any_append, List.any_cons, List.any_nil, Bool.or_false,
      Bool.or_comm]

/-- Over any number of headers, in any order, every place follows the last one of its name. -/
theorem Follows.readHeaders {left : Nat} : ∀ {i : Nat} {r : Reader} {s s' : Streams},
    s.Follows root → Streams.readHeaders root left i r s = .ok s' → s'.Follows root := by
  induction left with
  | zero =>
    intro i r s s' hs hrun
    cases hrun
    exact hs
  | succ left ih =>
    intro i r s s' hs hrun
    obtain ⟨h, r₁, data, s₁, -, hsub, hbind, hrun⟩ := readHeaders_succ_ok hrun
    exact ih (hs.concat hsub hbind) hrun

/-- Tables that are there come from a header. -/
theorem Follows.exists_last {s : Streams} (hs : s.Follows root) (hne : s.tables.len ≠ 0) :
    ∃ last, lastNamed? tableNames s.headers = some last
      ∧ root.sub last.offset last.size = .ok s.tables := by
  have htables := hs.tables
  unfold IsLast at htables
  split at htables
  · next last hlast => exact ⟨last, hlast, htables⟩
  · rw [htables] at hne
    exact absurd rfl hne

theorem Follows.compressed_iff {s : Streams} (hs : s.Follows root) :
    s.compressed = true ↔ ∃ hd ∈ s.headers, hd.name = "#~" := by
  rw [hs.compressed, List.any_eq_true]
  simp only [decide_eq_true_eq]

/-! ## Where the headers stand -/

/-- A header stands at a place: two words, and a name up to the first zero byte behind them. The
next one starts behind that, at a multiple of four. -/
structure HeaderAt (g : Region) (start : Nat) (h : StreamHeader) (next : Nat) : Prop where
  offset : h.offset = g.wordD 4 start
  size : h.size = g.wordD 4 (start + 4)
  name : ∃ stop, start + 8 ≤ stop ∧ stop < g.len ∧ g.byte stop = 0
    ∧ (∀ i, start + 8 ≤ i → i < stop → g.byte i ≠ 0) ∧ h.name = g.text (start + 8) stop
    ∧ next = roundUp4 (stop + 1)

/-- The headers stand one behind the other from a place on. -/
inductive HeadersAt (g : Region) : Nat → List StreamHeader → Prop
  | nil (start : Nat) : HeadersAt g start []
  | cons {start next : Nat} {h : StreamHeader} {hs : List StreamHeader}
      (first : HeaderAt g start h next) (rest : HeadersAt g next hs) : HeadersAt g start (h :: hs)

theorem readHeader_ok {r r' : Reader} (hread : readHeader r = .ok h r')
    (hlen : r.region.len < 0x100000000) :
    ∃ next, r' = r.seekTo next ∧ HeaderAt r.region r.offset h next := by
  unfold readHeader at hread
  obtain ⟨offset, r₁, hoffset, hread⟩ := EStateM.bind_ok hread
  obtain ⟨size, r₂, hsize, hread⟩ := EStateM.bind_ok hread
  obtain ⟨name, r₃, hname, hread⟩ := EStateM.bind_ok hread
  obtain ⟨⟨⟩, r₄, halign, hread⟩ := EStateM.bind_ok hread
  cases hread
  obtain ⟨-, rfl, rfl⟩ := Read.word_ok (by decide) hoffset
  obtain ⟨-, rfl, rfl⟩ := Read.word_ok (by decide) hsize
  obtain ⟨stop, hfind, rfl, rfl⟩ := Read.zeroTerminated_ok hname
  obtain ⟨hle, hlt, hzero, hbefore⟩ := Region.findZero?_ok hfind
  simp only [Reader.advance, Nat.add_assoc, Nat.reduceAdd] at hle hlt hzero hbefore halign ⊢
  rw [Read.align_four (by simp only [Reader.seekTo]; omega)] at halign
  cases halign
  exact ⟨_, rfl, rfl, rfl, stop, hle, hlt, hzero, hbefore, rfl, rfl⟩

/-- The headers that were read stand one behind the other, and each names a window that ends inside
the root. -/
theorem readHeaders_ok {left : Nat} (hlen : root.len < 0x100000000) :
    ∀ {i : Nat} {r : Reader} {s s' : Streams}, r.region = root →
      Streams.readHeaders root left i r s = .ok s' →
      ∃ hs, s'.headers = s.headers ++ hs ∧ hs.length = left ∧ HeadersAt root r.offset hs
        ∧ ∀ h ∈ hs, h.offset + h.size ≤ root.len := by
  induction left with
  | zero =>
    intro i r s s' _ hrun
    cases hrun
    exact ⟨[], (List.append_nil _).symm, rfl, .nil _, List.forall_mem_nil _⟩
  | succ left ih =>
    intro i r s s' hr hrun
    subst hr
    obtain ⟨h, r₁, data, s₁, hread, hsub, -, hrun⟩ := readHeaders_succ_ok hrun
    obtain ⟨next, rfl, hat⟩ := readHeader_ok hread hlen
    obtain ⟨hs, hheaders, hlength, hrest, hinside⟩ := ih (r := r.seekTo next) rfl hrun
    obtain ⟨-, -, hin, -, -, -⟩ := Region.sub_ok hsub
    rw [Int.toNat_natCast, Int.toNat_natCast] at hin
    refine ⟨h :: hs, ?_, ?_, .cons hat hrest, List.forall_mem_cons.mpr ⟨hin, hinside⟩⟩
    · rw [hheaders, List.append_assoc, List.singleton_append]
    · rw [List.length_cons, hlength]

end Streams

/-! ## The root -/

namespace Root

variable {g : Region}

/-- What a root that was read says: the version is skipped by its rounded length, two bytes behind
it is the number of headers, and behind that they start. -/
theorem read_ok {root : Root} (h : Root.read g = .ok root) :
    16 ≤ g.len ∧ 16 + versionLength (g.wordD 4 12) + 4 ≤ g.len
      ∧ Streams.readHeaders g (g.wordD 2 (16 + versionLength (g.wordD 4 12) + 2)) 0
          (g.reader.seekTo (16 + versionLength (g.wordD 4 12) + 4)) .none = .ok root.streams
      ∧ root.streams.tables.len ≠ 0 := by
  unfold Root.read at h
  dsimp only at h
  split at h
  · cases h
  split at h
  · next declared hdeclared =>
    split at h
    · next version r₁ hversion =>
      split at h
      · next r₂ hskip =>
        split at h
        · next count r₃ hcount =>
          obtain ⟨streams, hstreams, h⟩ := Except.bind_ok h
          split at h
          · cases h
          · next htables =>
            cases h
            have hword : g.word 4 ((12 : Nat) : Int) = .ok declared := hdeclared
            obtain ⟨hin, rfl⟩ := Region.word_ok hword
            obtain rfl := Read.fixedText_ok hversion
            obtain rfl := Read.skip_ok hskip
            obtain ⟨hroom, rfl, rfl⟩ := Read.word_ok (by decide) hcount
            exact ⟨hin, hroom, hstreams, htables⟩
        · cases h
      · cases h
    · cases h
  · cases h

/-- The length of the version is rounded up as it should be, unless it is so large that the rounded
length is no 32-bit number. -/
theorem versionLength_eq_iff {declared : Nat} (h : declared < 0x100000000) :
    versionLength declared = roundUp4 declared ↔ declared ≤ 0xFFFFFFFC := by
  rw [versionLength, roundUp4]
  constructor
  · intro heq
    by_contra hnot
    have hsum : (declared + 3) % 0x100000000 < 4 := by omega
    omega
  · intro hle
    rw [Nat.mod_eq_of_lt (by omega)]

end Root

/-! ## Roots that are not assembled -/

namespace Assemble.Builder

theorem length_tableData_empty : empty.tableData.length = 24 := by decide

/-- A file around a root is an image if the root is read to streams whose tables have no rows. -/
theorem parse_image_fileAround {bytes : List UInt8} {P : Region → Streams → Prop}
    (hpos : 0 < bytes.length) (hsmall : bytes.length < 0x20000000)
    (hread : ∀ g : Region, g.Is bytes → ∃ root : Root, Root.read g = .ok root
      ∧ root.streams.tables.Is empty.tableData ∧ P g root.streams) :
    ∃ img, Image.parse (fileAround bytes) = .ok img ∧ P img.root img.streams := by
  obtain ⟨f, g, hparse, hat, hg⟩ := parse_fileAround hpos hsmall
  obtain ⟨root, hroot, htables, hP⟩ := hread g hg
  have hlen : root.streams.tables.len < 0x20000000 := by
    rw [htables.len_eq, length_tableData_empty]
    decide
  obtain ⟨stream, hstream, -, -⟩ := read_tableData sound_empty.fit htables.holds hlen
  refine ⟨⟨f, .empty, g, root.version, root.streams, stream.head, stream.widths, stream.tables⟩, ?_,
    hP⟩
  simp only [Image.parse, hparse, Image.ofFile, bind, Except.bind, hat, hroot, hstream]
  rfl

/-- Two streams of tables without rows, an optimised one first. -/
def mixedTables : List (String × List UInt8) :=
  [("#~", empty.tableData), ("#-", empty.tableData)]

theorem streamsOffsetOf_mixedTables (field : List UInt8) :
    streamsOffsetOf field mixedTables = 44 + field.length := by
  have hempty : streamsOffsetOf [] mixedTables = 44 := by decide
  rw [streamsOffsetOf, List.length_nil] at hempty
  rw [streamsOffsetOf]
  omega

/-- What is read of the two streams behind a version that the reader takes to be as long as it
is. -/
structure ReadsMixed (declared : Nat) (field : List UInt8) (g : Region) (s : Streams) : Prop where
  declared : g.wordD 4 12 = declared
  len : g.len = 92 + field.length
  compressed : s.compressed = true
  headers : s.headers = [⟨"#~", 44 + field.length, 24⟩, ⟨"#-", 68 + field.length, 24⟩]

theorem parse_mixedTables (declared : Nat) (field : List UInt8) (hdeclared : declared < 0x100000000)
    (hfield : field.length = Root.versionLength declared) (hsmall : field.length < 100) :
    ∃ img, Image.parse (fileAround (rootBytes declared field mixedTables)) = .ok img
      ∧ ReadsMixed declared field img.root img.streams := by
  have hstart := streamsOffsetOf_mixedTables field
  have htables := length_tableData_empty
  have hlength : (rootBytes declared field mixedTables).length = 92 + field.length := by
    rw [length_rootBytes, hstart]
    simp only [mixedTables, List.flatMap_cons, List.flatMap_nil, List.length_append, htables,
      List.length_nil]
    omega
  refine parse_image_fileAround (by omega) (by omega) fun g hg => ?_
  have hlen : g.len = 92 + field.length := by rw [hg.len_eq, hlength]
  obtain ⟨hheaders, hdata⟩ := rootBytes_streams hg
  have halign : (16 + field.length + 4) % 4 = 0 := by
    rw [hfield, Root.versionLength]
    omega
  simp only [mixedTables, List.flatMap_cons, List.flatMap_nil, List.append_nil] at hheaders hdata
  have hregion : (g.reader.seekTo (16 + field.length + 4)).region = g := rfl
  obtain ⟨w₀, -, hr, ha, hrest, hfirst⟩ := readHeaders_cons hregion (ne_zero_of_all (by decide))
    hheaders hdata.left halign (by omega)
  obtain ⟨w₁, hw₁, -, -, -, hsecond⟩ := readHeaders_cons hr (ne_zero_of_all (by decide)) hrest
    hdata.right ha (by omega)
  have hstreams := (hfirst 1 0 .none _ rfl).trans (hsecond 0 1 _ _ rfl)
  rw [Streams.readHeaders] at hstreams
  have hnonempty : ¬ w₁.len = 0 := by
    rw [hw₁.len_eq, htables]
    decide
  refine ⟨_, read_rootBytes hg hdeclared hfield (by decide) hstreams hnonempty, hw₁,
    rootBytes_declared hg hdeclared, hlen, rfl, ?_⟩
  have hbehind : streamsOffsetOf field mixedTables + empty.tableData.length
      = 68 + field.length := by omega
  show [StreamHeader.mk _ _ _, StreamHeader.mk _ _ _] = _
  rw [← hbehind, ← hstart, ← htables]
  rfl

end Assemble.Builder

/-! ## The image -/

/-- The metadata directory has a size of 32 bits. -/
theorem Portable.File.parse_metadata_size {data : ByteArray} {f : Portable.File}
    (h : Portable.File.parse data = .ok f) : f.runtime.metadata.size < 0x100000000 := by
  obtain ⟨headers, -, h⟩ := Except.bind_ok h
  obtain ⟨runtime, hruntime, h⟩ := Except.bind_ok h
  cases h
  unfold Portable.File.readRuntime at hruntime
  dsimp only at hruntime
  split at hruntime
  · cases hruntime
  obtain ⟨off, -, hruntime⟩ := Except.bind_ok hruntime
  split at hruntime
  · next r hr =>
    split at hruntime
    · cases hruntime
    · cases hruntime
      exact Region.wordD_lt r 4 12
  · cases hruntime

theorem Portable.File.regionAt_len {f : Portable.File} {rva length : Nat} {g : Region}
    (h : f.regionAt rva length = .ok g) : g.len = length := by
  obtain ⟨off, -, h⟩ := Except.bind_ok h
  split at h
  · next hsub =>
    cases h
    obtain ⟨-, -, -, -, -, hlen⟩ := Region.sub_ok hsub
    exact hlen
  · cases h

namespace Image

variable {data : ByteArray} {img : Image}

/-- An image that parses was read from its root, which the metadata directory locates. -/
theorem parse_ok (h : Image.parse data = .ok img) :
    Portable.File.parse data = .ok img.file
      ∧ img.file.regionAt img.file.runtime.metadata.rva img.file.runtime.metadata.size = .ok img.root
      ∧ ∃ (root : Root) (stream : TableStream), Root.read img.root = .ok root
        ∧ TableStream.read root.streams.tables = .ok stream ∧ img.streams = root.streams
        ∧ img.head = stream.head ∧ img.widths = stream.widths ∧ img.tables = stream.tables := by
  unfold Image.parse at h
  split at h
  · next f hf =>
    unfold Image.ofFile at h
    obtain ⟨g, hg, h⟩ := Except.bind_ok h
    obtain ⟨root, hroot, h⟩ := Except.bind_ok h
    obtain ⟨stream, hstream, h⟩ := Except.bind_ok h
    cases h
    exact ⟨hf, hg, root, stream, hroot, hstream, rfl, rfl, rfl, rfl⟩
  · cases h

theorem root_len_lt (h : Image.parse data = .ok img) : img.root.len < 0x100000000 := by
  obtain ⟨hfile, hregion, -⟩ := parse_ok h
  rw [Portable.File.regionAt_len hregion]
  exact Portable.File.parse_metadata_size hfile

theorem parse_follows (h : Image.parse data = .ok img) :
    img.streams.Follows img.root ∧ img.streams.tables.len ≠ 0 := by
  obtain ⟨-, -, root, stream, hroot, -, hstreams, -⟩ := parse_ok h
  obtain ⟨-, -, hheaders, htables⟩ := Root.read_ok hroot
  rw [hstreams]
  exact ⟨(Streams.follows_none img.root).readHeaders hheaders, htables⟩

theorem tables_len_lt (h : Image.parse data = .ok img) :
    img.streams.tables.len < 0x100000000 :=
  Nat.lt_of_le_of_lt (parse_follows h).1.tables.len_le (root_len_lt h)

/-- **Streams follow the last header of their name.** The table stream is what the last header
named `#~` or `#-` declares, and there is one; each heap is what the last header of its name
declares, and empty without one. The image counts as compressed if any header is named `#~`; so the
mark tells the name of the header that gave the tables exactly if no `#~` stands before a last
`#-`. -/
theorem parse_binds_last (h : Image.parse data = .ok img) :
    (∃ last, Streams.lastNamed? Streams.tableNames img.streams.headers = some last
        ∧ img.root.sub last.offset last.size = .ok img.streams.tables
        ∧ (img.compressed = true ↔ ∃ hd ∈ img.streams.headers, hd.name = "#~")
        ∧ ((img.compressed = true ↔ last.name = "#~")
            ↔ ¬ (last.name = "#-" ∧ ∃ hd ∈ img.streams.headers, hd.name = "#~")))
      ∧ Streams.IsLast img.root ["#Strings"] img.streams.headers img.strings.region
      ∧ Streams.IsLast img.root ["#US"] img.streams.headers img.literals.region
      ∧ Streams.IsLast img.root ["#GUID"] img.streams.headers img.guids.region
      ∧ Streams.IsLast img.root ["#Blob"] img.streams.headers img.blobs.region := by
  obtain ⟨hfollows, hnonempty⟩ := parse_follows h
  obtain ⟨last, hlast, htables⟩ := hfollows.exists_last hnonempty
  obtain ⟨hmem, hname⟩ := Streams.lastNamed?_mem hlast
  have hmark : img.compressed = true ↔ ∃ hd ∈ img.streams.headers, hd.name = "#~" :=
    hfollows.compressed_iff
  have hne : (("#-" : Text) ≠ "#~") := by decide
  refine ⟨⟨last, hlast, htables, hmark, ?_⟩, hfollows.strings, hfollows.literals, hfollows.guids,
    hfollows.blobs⟩
  rw [hmark]
  simp only [Streams.tableNames, List.mem_cons, List.not_mem_nil, or_false] at hname
  rcases hname with hname | hname
  · -- The last one is itself a `#~`, so both sides hold.
    exact iff_of_true ⟨fun _ => hname, fun _ => ⟨last, hmem, hname⟩⟩
      fun hbefore => hne (hbefore.1.symm.trans hname)
  · rw [hname]
    constructor
    · rintro hiff ⟨-, hbefore⟩
      exact hne (hiff.mp hbefore)
    · intro hnot
      exact ⟨fun hbefore => absurd ⟨rfl, hbefore⟩ hnot, fun heq => absurd heq hne⟩

/-- The tables of an image that has a `#~` and a `#-` behind it are those of `#-`, and it still
counts as compressed. -/
theorem compressed_with_plain_tables : ∃ (img : Image) (last : StreamHeader),
    Image.parse (Assemble.Builder.fileAround
        (Assemble.Builder.rootBytes 4 (zeroBytes 4) Assemble.Builder.mixedTables)) = .ok img
      ∧ Streams.lastNamed? Streams.tableNames img.streams.headers = some last
      ∧ last.name = "#-" ∧ img.compressed = true := by
  obtain ⟨img, hparse, hread⟩ := Assemble.Builder.parse_mixedTables 4 (zeroBytes 4) (by decide)
    (by decide) (by decide)
  exact ⟨img, _, hparse, by rw [hread.headers]; rfl, rfl, hread.compressed⟩

theorem parse_binds_last_mixedTables : ∃ img : Image,
    Image.parse (Assemble.Builder.fileAround
        (Assemble.Builder.rootBytes 4 (zeroBytes 4) Assemble.Builder.mixedTables)) = .ok img
      ∧ img.root.sub 72 24 = .ok img.streams.tables ∧ img.strings.region = .empty := by
  obtain ⟨img, hparse, hread⟩ := Assemble.Builder.parse_mixedTables 4 (zeroBytes 4) (by decide)
    (by decide) (by decide)
  obtain ⟨⟨last, hlast, htables, -⟩, hstrings, -⟩ := parse_binds_last hparse
  rw [hread.headers] at hlast hstrings
  obtain rfl := Option.some.inj hlast
  exact ⟨img, hparse, htables, hstrings⟩

/-- **What the root declares lies inside it.** The root is the metadata directory of the file. The
flags stand behind the version, whose declared length is rounded up in 32 bits; the number of
headers and the headers follow, and every header names a window that ends inside the root. The flags
stand where the rounded length says, as a number of any size, exactly if the declared length is none
of the three largest. -/
theorem parse_root_inside (h : Image.parse data = .ok img) :
    img.file.regionAt img.file.runtime.metadata.rva img.file.runtime.metadata.size = .ok img.root
      ∧ ∃ flags, flags = 16 + Root.versionLength (img.root.wordD 4 12)
        ∧ 16 ≤ img.root.len ∧ flags + 4 ≤ img.root.len
        ∧ img.streams.headers.length = img.root.wordD 2 (flags + 2)
        ∧ Streams.HeadersAt img.root (flags + 4) img.streams.headers
        ∧ (∀ hd ∈ img.streams.headers, hd.offset + hd.size ≤ img.root.len)
        ∧ (16 + roundUp4 (img.root.wordD 4 12) + 4 ≤ img.root.len
              ∧ flags = 16 + roundUp4 (img.root.wordD 4 12)
            ↔ img.root.wordD 4 12 ≤ 0xFFFFFFFC) := by
  obtain ⟨-, hregion, root, stream, hroot, -, hstreams, -⟩ := parse_ok h
  have hlen := root_len_lt h
  obtain ⟨hdeclared, hroom, hheaders, -⟩ := Root.read_ok hroot
  rw [← hstreams] at hheaders
  obtain ⟨hs, hall, hcount, hat, hinside⟩ := Streams.readHeaders_ok hlen rfl hheaders
  have hall : img.streams.headers = hs := hall
  have hword : img.root.wordD 4 12 < 0x100000000 := Region.wordD_lt img.root 4 12
  refine ⟨hregion, _, rfl, hdeclared, hroom, ?_, ?_, ?_, ?_⟩
  · rw [hall, hcount]
  · rw [hall]
    exact hat
  · rw [hall]
    exact hinside
  · have hround := Root.versionLength_eq_iff hword
    constructor
    · rintro ⟨-, heq⟩
      exact hround.mp (by omega)
    · intro hle
      rw [hround.mpr hle] at hroom ⊢
      exact ⟨hroom, rfl⟩

/-- A version that is declared to be as long as the largest word does not fit any root; it is taken
to be empty. -/
theorem version_longer_than_root : ∃ img : Image,
    Image.parse (Assemble.Builder.fileAround
        (Assemble.Builder.rootBytes 0xFFFFFFFF [] Assemble.Builder.mixedTables)) = .ok img
      ∧ img.root.len < 16 + roundUp4 (img.root.wordD 4 12) + 4 := by
  obtain ⟨img, hparse, hread⟩ := Assemble.Builder.parse_mixedTables 0xFFFFFFFF [] (by decide)
    (by decide) (by decide)
  refine ⟨img, hparse, ?_⟩
  rw [hread.declared, hread.len]
  decide

theorem parse_root_inside_longVersion : ∃ img : Image,
    Image.parse (Assemble.Builder.fileAround
        (Assemble.Builder.rootBytes 0xFFFFFFFF [] Assemble.Builder.mixedTables)) = .ok img
      ∧ img.streams.headers.length = 2 ∧ Streams.HeadersAt img.root 20 img.streams.headers := by
  obtain ⟨img, hparse, hread⟩ := Assemble.Builder.parse_mixedTables 0xFFFFFFFF [] (by decide)
    (by decide) (by decide)
  obtain ⟨-, flags, hflags, -, -, -, hat, -⟩ := parse_root_inside hparse
  have hsixteen : flags = 16 := by
    rw [hflags, hread.declared]
    rfl
  subst hsixteen
  exact ⟨img, hparse, by rw [hread.headers]; rfl, hat⟩

end Image

end ManagedImage
