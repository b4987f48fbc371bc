/-
The assembler and the reader agree on heaps.

An index that the builder handed out stays good: what it stored is still there in the
finished heap, the heap is a stream of the file, and the reader finds at the index what was
stored. The two listings walk over the runs of entries that `Chained` describes and stop at
the padding, which is read as empty strings in one heap and as the end in the other.
-/
import ManagedImage.Proofs.Assemble.Agreement
import ManagedImage.Proofs.Assemble.Heaps
import ManagedImage.Proofs.Metadata.Heaps

set_option autoImplicit false

namespace ManagedImage.Assemble

open Builder (stringBytes entryBytes guidBytes literalBytes)

/-! ## From the heap to the stream -/

/-- What is stored in a heap stands in a region that holds the heap. -/
theorem Stored.holds_from {heap : ByteArray} {i start : Nat} {bs : List UInt8} {g : Region}
    (h : Stored heap i bs) (hne : bs ≠ []) (hg : g.Holds start heap.data.toList) :
    g.Holds (start + i) bs := by
  have hle := h.size_le hne
  have hlen : heap.data.toList.length = heap.size := Array.length_toList
  obtain ⟨more, hmore⟩ := h
  have hsplit : heap.data.toList = heap.data.toList.take i ++ (bs ++ more) := by
    rw [hmore, List.take_append_drop]
  rw [hsplit] at hg
  have hright := hg.right.left
  rwa [List.length_take, Nat.min_eq_left (by omega)] at hright

theorem Stored.holds {heap : ByteArray} {i : Nat} {bs : List UInt8} {g : Region}
    (h : Stored heap i bs) (hne : bs ≠ []) (hg : g.Holds 0 heap.data.toList) : g.Holds i bs := by
  have hheld := h.holds_from hne hg
  rwa [Nat.zero_add] at hheld

/-! ## Listing the strings -/

/-- Padding holds no string. -/
theorem entriesFrom_zeros {g : Region} : ∀ (n i : Nat), g.Holds i (zeroBytes n) →
    g.len = i + n → StringHeap.entriesFrom g i = []
  | 0, i, _, hlen => by
    have hend : ¬ i < g.len := by omega
    rw [StringHeap.entriesFrom, if_neg hend]
  | n + 1, i, h, hlen => by
    have hin : i < g.len := by omega
    have hsplit : zeroBytes (n + 1) = [0] ++ zeroBytes n := rfl
    rw [hsplit] at h
    have hfind : g.findZero? i = some i :=
      Region.findZero?_holds [] i (fun b hb => absurd hb List.not_mem_nil) h.left
    have hrest := entriesFrom_zeros n (i + 1) h.right (by omega)
    rw [StringHeap.entriesFrom, if_pos hin, hfind]
    simp only [Nat.lt_irrefl, dif_neg, not_false_eq_true, hrest]

/-- The strings of a run are listed with their places. -/
theorem entriesFrom_chained {g : Region} : ∀ (es : List (Nat × Text)) (i n : Nat),
    (∀ e ∈ es, e.2.isEmpty = false ∧ ∀ b ∈ e.2.toList, b ≠ 0) → Chained stringBytes i es →
      g.Holds i (written stringBytes es ++ zeroBytes n) →
        g.len = i + ((written stringBytes es).length + n) → StringHeap.entriesFrom g i = es
  | [], i, n, _, _, h, hlen => by
    have hnil : (written stringBytes []).length = 0 := rfl
    rw [hnil, Nat.zero_add] at hlen
    exact entriesFrom_zeros n i h hlen
  | (j, s) :: es, i, n, hes, hchain, h, hlen => by
    obtain ⟨hsome, hzero⟩ : s.isEmpty = false ∧ ∀ b ∈ s.toList, b ≠ 0 :=
      hes (j, s) List.mem_cons_self
    obtain ⟨rfl, htail⟩ := hchain
    have hwritten : written stringBytes ((j, s) :: es) = stringBytes s ++ written stringBytes es :=
      List.flatMap_cons
    rw [hwritten, List.append_assoc] at h
    rw [hwritten, List.length_append] at hlen
    have hpos : 0 < s.toList.length := by
      rw [Text.isEmpty, beq_eq_false_iff_ne] at hsome
      have hsize : s.toList.length = s.bytes.size := Array.length_toList
      omega
    have hbytes : (stringBytes s).length = s.toList.length + 1 := by
      rw [Builder.stringBytes, List.length_append, List.length_singleton]
    have hin : j < g.len := by omega
    have hstop : j < j + s.toList.length := by omega
    have hrest := entriesFrom_chained es (j + (stringBytes s).length) n
      (fun e he => hes e (List.mem_cons_of_mem _ he)) htail h.right (by omega)
    rw [StringHeap.entriesFrom, if_pos hin, Region.findZero?_holds s.toList j hzero h.left]
    rw [hbytes, ← Nat.add_assoc] at hrest
    simp only [dif_pos hstop, h.left.left.text, Text.ofList_toList, hrest]

/-! ## Reading and listing the literals -/

/-- The text of a literal as it is read: stray bytes have become the replacement character. -/
def literalText (s : Text) : Text := Text.ofChars (s.runes.map Rune.toChar)

/-- A valid text is read as it is. -/
theorem literalText_ofString (u : String) : literalText (Text.ofString u) = Text.ofString u := by
  rw [literalText, Text.chars_ofString, Text.ofChars_toList]

section Literals

variable {h : LiteralHeap} {i : Nat} {s : Text}

/-- The units of a text. -/
def textUnits (s : Text) : List Nat := Units.encode (s.runes.map Rune.toChar)

theorem literalBytes_eq (s : Text) : literalBytes s
    = Units.toBytes (textUnits s) ++ [if (textUnits s).any fun u => 0x7F ≤ u then 1 else 0] := rfl

theorem length_literalBytes (s : Text) :
    (literalBytes s).length = 2 * (textUnits s).length + 1 := by
  rw [literalBytes_eq, List.length_append, Units.length_toBytes, List.length_singleton]

theorem literal_raw (hn : (literalBytes s).length ≤ Compressed.maxValue)
    (hheld : h.region.Holds i (literalEntry s)) : h.raw i = .ok (literalBytes s) := by
  rw [LiteralHeap.raw, Region.entry_holds hn _ hheld]
  exact congrArg Except.ok List.toList_data_toByteArray

theorem literal_units (hn : (literalBytes s).length ≤ Compressed.maxValue)
    (hheld : h.region.Holds i (literalEntry s)) : h.units i = .ok (textUnits s) := by
  rw [LiteralHeap.units, literal_raw hn hheld]
  exact congrArg Except.ok (Units.ofBytes_toBytes _ _ (Units.encode_lt _))

theorem literal_get (hn : (literalBytes s).length ≤ Compressed.maxValue)
    (hheld : h.region.Holds i (literalEntry s)) : h.get i = .ok (literalText s) := by
  rw [LiteralHeap.get, literal_units hn hheld]
  exact congrArg (fun cs => Except.ok (Text.ofChars cs)) (Units.decode_encode _)

/-- The flag byte is the last one, and it is there because the length is odd. -/
theorem literal_isSpecial (hn : (literalBytes s).length ≤ Compressed.maxValue)
    (hheld : h.region.Holds i (literalEntry s)) :
    h.isSpecial i = .ok ((textUnits s).any fun u => 0x7F ≤ u) := by
  rw [LiteralHeap.isSpecial, literal_raw hn hheld]
  refine congrArg Except.ok ?_
  have hodd : decide ((literalBytes s).length % 2 = 1) = true := by
    rw [length_literalBytes, decide_eq_true_eq]
    omega
  rw [hodd, Bool.true_and, literalBytes_eq, List.getLast?_concat]
  cases (textUnits s).any fun u => 0x7F ≤ u <;> rfl

/-- The literals of a run are listed with their places; padding ends the list. -/
theorem literals_chained : ∀ (es : List (Nat × Text)) (i n : Nat),
    (∀ e ∈ es, (literalBytes e.2).length ≤ Compressed.maxValue) → Chained literalEntry i es →
      h.region.Holds i (written literalEntry es ++ zeroBytes n) →
        h.region.len = i + ((written literalEntry es).length + n) →
          h.entriesFrom i = es.map fun e => (e.1, literalText e.2)
  | [], i, 0, _, _, _, hlen => by
    have hend : ¬ i < h.region.len := by
      rw [hlen, written, List.flatMap_nil, List.length_nil]
      omega
    rw [LiteralHeap.entriesFrom, dif_neg hend]
    rfl
  | [], i, n + 1, _, _, hheld, hlen => by
    -- The first byte of the padding is an empty entry, at which listing stops.
    have hin : i < h.region.len := by omega
    have hsplit : written literalEntry [] ++ zeroBytes (n + 1)
        = Compressed.lengthBytes 0 ++ zeroBytes n := rfl
    rw [hsplit] at hheld
    have hlength := Read.lengthField_holds (r := h.region.reader.seekTo i) (Nat.zero_le _)
      hheld.left
    rw [LiteralHeap.entriesFrom, dif_pos hin, hlength]
    rfl
  | (j, s) :: es, i, n, hes, hchain, hheld, hlen => by
    have hn : (literalBytes s).length ≤ Compressed.maxValue := hes (j, s) List.mem_cons_self
    obtain ⟨rfl, htail⟩ := hchain
    have hwritten : written literalEntry ((j, s) :: es)
        = literalEntry s ++ written literalEntry es := List.flatMap_cons
    rw [hwritten, List.append_assoc] at hheld
    rw [hwritten, List.length_append] at hlen
    have hentry : (literalEntry s).length
        = (Compressed.lengthBytes (literalBytes s).length).length + (literalBytes s).length := by
      rw [literalEntry, Builder.entryBytes, List.length_append]
    have hodd := length_literalBytes s
    have hin : j < h.region.len := by omega
    have hlength := Read.lengthField_holds (r := h.region.reader.seekTo j) hn hheld.left.left
    have hget := literal_get hn hheld.left
    have hrest := literals_chained es (j + (literalEntry s).length) n
      (fun e he => hes e (List.mem_cons_of_mem _ he)) htail hheld.right (by omega)
    rw [hentry, ← Nat.add_assoc] at hrest
    -- A literal is never empty, so it is not taken for padding.
    have hsome : ¬ (literalBytes s).length = 0 := by omega
    have hnext : j < j + (Compressed.lengthBytes (literalBytes s).length).length
        + (literalBytes s).length := by omega
    rw [LiteralHeap.entriesFrom, dif_pos hin, hlength]
    simp only [if_neg hsome, hget, Reader.advance, Reader.seekTo, dif_pos hnext, hrest,
      List.map_cons]

end Literals

/-! ## One heap read back -/

/-- A heap that starts with a zero byte, padded and read back: the run, then zeros up to the end. -/
theorem run_of_padded {g : Region} {heap run : List UInt8} (heap_eq : heap = 0 :: run)
    (hg : g.Is (padTo 4 heap)) :
    ∃ n, g.Holds 0 [0] ∧ g.Holds 1 (run ++ zeroBytes n) ∧ g.len = 1 + (run.length + n) := by
  have hsplit : padTo 4 heap = [0] ++ (run ++ zeroBytes ((4 - heap.length % 4) % 4)) := by
    rw [padTo, heap_eq]
    rfl
  have hlen := hg.len_eq
  have hheld := hg.holds
  rw [hsplit] at hlen hheld
  rw [List.length_append, List.length_append, length_zeroBytes, List.length_singleton] at hlen
  exact ⟨_, hheld.left, hheld.right, hlen⟩

section Strings

variable {heap : ByteArray} {index : List (Text × Nat)} {requests : List (Nat × Text)}

theorem toList_of_isEmpty {s : Text} (h : s.isEmpty = true) : s.toList = [] := by
  rw [Text.isEmpty, beq_iff_eq] at h
  exact List.length_eq_zero_iff.mp (Array.length_toList.trans h)

theorem mem_distinct {v : Nat} {s : Text} (h : (v, s) ∈ requests) (hs : s.isEmpty = false) :
    (v, s) ∈ distinct requests := by
  refine List.mem_eraseDups.mpr (List.mem_filter.mpr ⟨h, ?_⟩)
  rw [hs]
  rfl

theorem of_mem_distinct {e : Nat × Text} (h : e ∈ distinct requests) :
    e ∈ requests ∧ e.2.isEmpty = false := by
  obtain ⟨hmem, hsome⟩ := List.mem_filter.mp (List.mem_eraseDups.mp h)
  exact ⟨hmem, by rwa [Bool.not_eq_true'] at hsome⟩

/-- Two requests have the same index just when they ask for the same string. -/
theorem StringsHeld.index_eq_iff (h : StringsHeld heap index requests) {v w : Nat} {s t : Text}
    (hs : (v, s) ∈ requests) (ht : (w, t) ∈ requests) : v = w ↔ s = t := by
  -- The empty string is at zero, every other one behind it.
  have hpos : ∀ {i : Nat} {u : Text}, (i, u) ∈ requests → u.isEmpty = false → 1 ≤ i :=
    fun hi hu => h.chained.start_le (mem_distinct hi hu)
  cases hse : s.isEmpty with
  | true =>
    have hv : v = 0 := h.empty _ hs hse
    cases hte : t.isEmpty with
    | true =>
      have hw : w = 0 := h.empty _ ht hte
      have hst : s = t := by
        rw [← Text.ofList_toList s, ← Text.ofList_toList t, toList_of_isEmpty hse,
          toList_of_isEmpty hte]
      exact iff_of_true (hv.trans hw.symm) hst
    | false =>
      have hw := hpos ht hte
      refine iff_of_false (by omega) fun hst => ?_
      rw [hst, hte] at hse
      cases hse
  | false =>
    have hsd := mem_distinct hs hse
    constructor
    · intro hvw
      have hv := hpos hs hse
      cases hte : t.isEmpty with
      | true =>
        have hw : w = 0 := h.empty _ ht hte
        omega
      | false =>
        have htd := mem_distinct ht hte
        rw [← hvw] at htd
        exact h.chained.injective Builder.stringBytes_ne_nil hsd htd
    · rintro rfl
      have htd := mem_distinct ht hse
      exact congrArg Prod.fst (List.inj_on_of_nodup_map h.once hsd htd rfl)

variable {h : StringHeap}

theorem StringsHeld.get (hheld : StringsHeld heap index requests)
    (hg : h.region.Is (padTo 4 heap.data.toList)) {v : Nat} {s : Text} (hmem : (v, s) ∈ requests)
    (hs : ∀ b ∈ s.toList, b ≠ 0) : h.get v = .ok s := by
  obtain ⟨n, hzero, hrun, -⟩ := run_of_padded hheld.bytes hg
  apply StringHeap.get_holds hs
  cases hse : s.isEmpty with
  | true =>
    have hv : v = 0 := hheld.empty _ hmem hse
    rw [toList_of_isEmpty hse, hv]
    exact hzero
  | false => exact hheld.chained.holds hrun.left (mem_distinct hmem hse)

theorem StringsHeld.entries (hheld : StringsHeld heap index requests)
    (hg : h.region.Is (padTo 4 heap.data.toList))
    (hs : ∀ e ∈ requests, ∀ b ∈ e.2.toList, b ≠ 0) : h.entries = distinct requests := by
  obtain ⟨n, -, hrun, hlen⟩ := run_of_padded hheld.bytes hg
  refine entriesFrom_chained _ 1 n ?_ hheld.chained hrun hlen
  intro e he
  obtain ⟨hmem, hsome⟩ := of_mem_distinct he
  exact ⟨hsome, hs e hmem⟩

end Strings

section Literals

variable {heap : ByteArray} {requests : List (Nat × Text)} {h : LiteralHeap}

/-- No literal is longer than its heap. -/
theorem length_literal_le : ∀ {es : List (Nat × Text)} {e : Nat × Text}, e ∈ es →
    (literalBytes e.2).length ≤ (written literalEntry es).length
  | x :: es, e, he => by
    have hwritten : written literalEntry (x :: es) = literalEntry x.2 ++ written literalEntry es :=
      List.flatMap_cons
    rw [hwritten, List.length_append]
    rcases List.mem_cons.mp he with rfl | htail
    · rw [literalEntry, Builder.entryBytes, List.length_append]
      omega
    · exact Nat.le_trans (length_literal_le htail) (Nat.le_add_left _ _)

theorem LiteralsHeld.length_le (hheld : LiteralsHeld heap requests)
    (hsize : heap.size < 0x20000000) :
    ∀ e ∈ requests, (literalBytes e.2).length ≤ Compressed.maxValue := by
  intro e he
  have hle := length_literal_le he
  have hlen := size_eq_of_toList hheld.bytes
  rw [List.length_cons] at hlen
  rw [Compressed.maxValue]
  omega

theorem LiteralsHeld.holds (hheld : LiteralsHeld heap requests)
    (hg : h.region.Is (padTo 4 heap.data.toList)) {e : Nat × Text} (he : e ∈ requests) :
    h.region.Holds e.1 (literalEntry e.2) := by
  obtain ⟨n, -, hrun, -⟩ := run_of_padded hheld.bytes hg
  exact hheld.chained.holds hrun.left he

theorem LiteralsHeld.entries (hheld : LiteralsHeld heap requests) (hsize : heap.size < 0x20000000)
    (hg : h.region.Is (padTo 4 heap.data.toList)) :
    h.entries = requests.map fun e => (e.1, literalText e.2) := by
  obtain ⟨n, -, hrun, hlen⟩ := run_of_padded hheld.bytes hg
  exact literals_chained requests 1 n (hheld.length_le hsize) hheld.chained hrun hlen

end Literals

/-! ## The agreement -/

/-- What the heaps of an image have in common with a journal. -/
structure HeapsAgree (js : List (Store × Nat)) (img : Image) : Prop where
  /-- A string without a zero byte is found at the index it was given. -/
  string : ∀ (s : Text) (v : Nat), (.string s, v) ∈ js → (∀ b ∈ s.toList, b ≠ 0) →
    img.strings.get v = .ok s
  /-- Strings share an index just when they are the same. -/
  sameString : ∀ (s t : Text) (v w : Nat), (.string s, v) ∈ js → (.string t, w) ∈ js →
    (v = w ↔ s = t)
  /-- A blob is found at its index. -/
  blob : ∀ (data : List UInt8) (v : Nat), (.blob data, v) ∈ js →
    img.blobs.get v = .ok data.toByteArray
  /-- A GUID is found at its index. -/
  guid : ∀ (g : List UInt8) (v : Nat), (.guid g, v) ∈ js → g.length = 16 →
    img.guids.get v = .ok g.toByteArray
  /-- A valid literal is found at its index, with its units, and its flag says whether one of them
  is not plain. -/
  literal : ∀ (u : String) (v : Nat), (.literal u, v) ∈ js →
    img.literals.get v = .ok u ∧ img.literals.units v = .ok (Units.encode u.toList)
      ∧ img.literals.isSpecial v = .ok ((Units.encode u.toList).any fun c => 0x7F ≤ c)
  /-- If no string has a zero byte, the listing is the distinct non-empty strings in the order of
  their first appearance, each with its index. -/
  allStrings : (∀ e ∈ calls Store.string? js, ∀ b ∈ e.2.toList, b ≠ 0) →
    img.strings.entries = distinct (calls Store.string? js)
  /-- The listing of the literals is every request in order with its index. -/
  allLiterals : img.literals.entries
    = (calls Store.literal? js).map fun e => (e.1, literalText e.2)

theorem heapsAgree_of_readBack {b : Builder} {img : Image} {js : List (Store × Nat)}
    (h : Holdings b js) (hsize : b.bytes.size < 0x20000000) (hr : Builder.ReadBack b img) :
    HeapsAgree js img := by
  obtain ⟨-, hblobs, -, -, hliterals⟩ := b.length_streams_le
  have hshort : b.literals.size < 0x20000000 := by omega
  refine ⟨?_, ?_, ?_, ?_, ?_, ?_, ?_⟩
  · intro s v hmem hs
    exact h.strings.get (h := img.strings) hr.streams.strings (mem_calls hmem rfl) hs
  · intro s t v w hs ht
    exact h.strings.index_eq_iff (mem_calls hs rfl) (mem_calls ht rfl)
  · intro data v hmem
    have hstored : Stored b.blobs v (entryBytes data) :=
      h.blobs.stored (v, data) (mem_calls hmem rfl)
    have hlen := hstored.size_le (Builder.entryBytes_ne_nil data)
    rw [Builder.entryBytes, List.length_append] at hlen
    refine BlobHeap.get_holds ?_ (hstored.holds (Builder.entryBytes_ne_nil data) ?_)
    · rw [Compressed.maxValue]
      omega
    · exact hr.streams.blobs.holds.left
  · intro g v hmem hg
    obtain ⟨hpos, hstored⟩ := h.guids.stored (v, g) (mem_calls hmem rfl)
    have hbytes : guidBytes g = g := by rw [Builder.guidBytes, List.take_left' hg]
    rw [hbytes] at hstored
    have hne : g ≠ [] := List.ne_nil_of_length_pos (by omega)
    exact GuidHeap.get_holds hpos hg (hstored.holds hne hr.streams.guids.holds)
  · intro u v hmem
    have hcall : (v, Text.ofString u) ∈ calls Store.literal? js := mem_calls hmem rfl
    have hn := h.literals.length_le hshort _ hcall
    have hheld := h.literals.holds (h := img.literals) hr.streams.literals hcall
    have hunits : textUnits (Text.ofString u) = Units.encode u.toList := by
      rw [textUnits, Text.chars_ofString]
    refine ⟨?_, ?_, ?_⟩
    · rw [literal_get hn hheld, literalText_ofString]
    · rw [literal_units hn hheld, hunits]
    · rw [literal_isSpecial hn hheld, hunits]
  · intro hs
    exact h.strings.entries (h := img.strings) hr.streams.strings hs
  · exact h.literals.entries (h := img.literals) hshort hr.streams.literals

/-- **Assembler and reader agree on heaps.** If some steps can be carried out and the file they give
is shorter than 2^29 bytes, it parses, and what was ever stored in a heap is read back at the index
it was given; a step that stores one thing gives that index. -/
theorem heaps_roundTrip {steps : List Step} {results : List Int} {b : Builder}
    (h : build steps = .ok (results, b)) (hsize : b.bytes.size < 0x20000000) :
    ∃ img : Image, Image.parse b.bytes = .ok img ∧ HeapsAgree (journal steps) img
      ∧ ∀ (k : Nat) (s : Step) (st : Store) (r : Int), steps[k]? = some s → s.request? = some st →
          results[k]? = some r → ∃ v : Nat, r = v ∧ (st, v) ∈ journal steps := by
  obtain ⟨-, hfit, hanswers⟩ := journal_of_build h
  obtain ⟨img, hparse, hread, -⟩ := Builder.parse_rowsFit hfit hsize
  exact ⟨img, hparse, heapsAgree_of_readBack (holdings_of_build h) hsize hread, hanswers⟩

/-- Strings that repeat, and a literal that is not plain. -/
def heapSteps : List Step :=
  [.string "ab", .literal "é", .row .typeRef [.number 0, .string "c", .string "ab"], .blob [1, 2]]

theorem heaps_roundTrip_heapSteps :
    ∃ (results : List Int) (b : Builder) (img : Image), build heapSteps = .ok (results, b)
      ∧ Image.parse b.bytes = .ok img
      ∧ img.strings.entries = [(1, ("ab" : Text)), (4, ("c" : Text))]
      ∧ img.literals.get 1 = .ok "é" ∧ img.literals.isSpecial 1 = .ok true := by
  obtain ⟨results, b, hbuild, hsize, -⟩ :=
    exists_build_of_short heapSteps (p := fun _ _ => True) (by decide +kernel)
  obtain ⟨img, hparse, hagree, -⟩ := heaps_roundTrip hbuild hsize
  have hentries := hagree.allStrings (by decide +kernel)
  obtain ⟨hget, -, hspecial⟩ := hagree.literal "é" 1 (by decide +kernel)
  have hlist : distinct (calls Store.string? (journal heapSteps))
      = [(1, ("ab" : Text)), (4, ("c" : Text))] := by
    decide +kernel
  have hflag : ((Units.encode "é".toList).any fun c => 0x7F ≤ c) = true := by decide +kernel
  rw [hlist] at hentries
  rw [hflag] at hspecial
  exact ⟨results, b, img, hbuild, hparse, hentries, hget, hspecial⟩

end ManagedImage.Assemble
