/-
Summaries written as CBOR and read back.

Every kind of entry has its fields, and each of them is read back as it was: whether the
bytes can be read at all depends on the lengths of the lists alone, and whether the item makes
an entry on the texts alone. So there are two ways in which a summary is not read back, and no
way to read another one (`Summary.cbor_reads_back`). A list of more members than the reader
takes is one of them, although nothing keeps a summary from having such a list.
-/
import ManagedImage.Proofs.Report.Fields

set_option autoImplicit false

namespace ManagedImage.Report

open Cbor Cbor.Item Document

/-- Whether all texts are valid. -/
def allValid (ts : List Text) : Bool := ts.all Text.isValid

theorem allValid_flatMap {α : Type} (xs : List α) (texts : α → List Text) :
    allValid (xs.flatMap texts) = xs.all fun x => allValid (texts x) := List.all_flatMap

/-- Texts with a place for their lengths in a head. -/
def Short (ts : List Text) : Prop := ∀ t ∈ ts, t.size < 0x10000000000000000

theorem sized_wordNumber (w : UInt32) : Sized (wordNumber w) := by
  have hlt := w.toNat_lt
  rw [wordNumber, Sized]
  omega

theorem sized_count (c : Int64) : Sized (.number c.toInt) := by
  have hlo := c.le_toInt
  have hhi := c.toInt_lt
  rw [Sized]
  omega

/-! ## Streams -/

namespace StreamEntry

/-- The texts of a stream. -/
def texts (s : StreamEntry) : List Text := [s.name]

/-- The fields of a stream. -/
def fields (s : StreamEntry) : List (String × Document) :=
  always "name" (.text s.name) ++ always "offset" (wordNumber s.offset)
    ++ always "size" (wordNumber s.size)

variable (s : StreamEntry)

theorem document_eq : s.document = .record s.fields := rfl

theorem keysIn_fields : KeysIn s.fields ["name", "offset", "size"] := List.Sublist.refl _

theorem keys : Keys ["name", "offset", "size"] := by
  constructor <;> decide +kernel

theorem ofItem?_document :
    StreamEntry.ofItem? (item s.document) = if allValid s.texts then some s else none := by
  rw [document_eq, StreamEntry.ofItem?, entries?_record]
  simp only [Option.bind_eq_bind, Option.bind_some, s.keysIn_fields.field_eq keys]
  simp only [fields, List.lookup_append, lookup_always, String.reduceEq, if_true, if_false,
    Option.none_or, Option.or_none, elim_some_apply]
  simp only [toText?_item, toWord?_wordNumber, Option.bind_some, allValid, texts, List.all_cons,
    List.all_nil, Bool.and_true]
  cases s.name.isValid <;> rfl

theorem fits_document (levels : Nat) : fits s.document (levels + 1) = true := by
  rw [document_eq, s.keysIn_fields.fits_eq keys]
  rfl

theorem sized_document (h : Short s.texts) : Sized s.document := by
  rw [document_eq]
  refine s.keysIn_fields.sized keys ?_
  simp only [fields, List.forall_mem_append, forall_always]
  exact ⟨⟨h _ (by simp [texts]), sized_wordNumber _⟩, sized_wordNumber _⟩

end StreamEntry

/-! ## Tables -/

namespace TableEntry

/-- The texts of a table. -/
def texts (t : TableEntry) : List Text := [t.name]

/-- The fields of a table. -/
def fields (t : TableEntry) : List (String × Document) :=
  always "name" (.text t.name) ++ always "rows" (wordNumber t.rows)
    ++ always "sorted" (.bool t.sorted)

variable (t : TableEntry)

theorem document_eq : t.document = .record t.fields := rfl

theorem keysIn_fields : KeysIn t.fields ["name", "rows", "sorted"] := List.Sublist.refl _

theorem keys : Keys ["name", "rows", "sorted"] := by
  constructor <;> decide +kernel

theorem ofItem?_document :
    TableEntry.ofItem? (item t.document) = if allValid t.texts then some t else none := by
  rw [document_eq, TableEntry.ofItem?, entries?_record]
  simp only [Option.bind_eq_bind, Option.bind_some, t.keysIn_fields.field_eq keys]
  simp only [fields, List.lookup_append, lookup_always, String.reduceEq, if_true, if_false,
    Option.none_or, Option.or_none, elim_some_apply]
  simp only [toText?_item, toWord?_wordNumber, toBool?_item, Option.bind_some, allValid, texts,
    List.all_cons, List.all_nil, Bool.and_true]
  cases t.name.isValid <;> rfl

theorem fits_document (levels : Nat) : fits t.document (levels + 1) = true := by
  rw [document_eq, t.keysIn_fields.fits_eq keys]
  rfl

theorem sized_document (h : Short t.texts) : Sized t.document := by
  rw [document_eq]
  refine t.keysIn_fields.sized keys ?_
  simp only [fields, List.forall_mem_append, forall_always]
  exact ⟨⟨h _ (by simp [texts]), sized_wordNumber _⟩, trivial⟩

end TableEntry

/-! ## Methods -/

namespace MethodEntry

/-- The texts of a method. -/
def texts (m : MethodEntry) : List Text := [m.name, m.signature]

/-- The fields of a method. -/
def fields (m : MethodEntry) : List (String × Document) :=
  always "token" (wordNumber m.token.value) ++ always "name" (.text m.name)
    ++ always "signature" (.text m.signature) ++ numberUnlessZero "rva" m.rva.toNat
    ++ numberUnlessZero "code_size" m.codeSize.toInt ++ numberUnlessZero "max_stack" m.maxStack.toInt
    ++ numberUnlessZero "clauses" m.clauses.toInt

variable (m : MethodEntry)

theorem document_eq : m.document = .record m.fields := rfl

theorem keysIn_fields : KeysIn m.fields
    ["token", "name", "signature", "rva", "code_size", "max_stack", "clauses"] :=
  ((((((keysIn_always _ _).append (keysIn_always _ _)).append (keysIn_always _ _)).append
    (keysIn_numberUnlessZero _ _)).append (keysIn_numberUnlessZero _ _)).append
    (keysIn_numberUnlessZero _ _)).append (keysIn_numberUnlessZero _ _)

theorem keys :
    Keys ["token", "name", "signature", "rva", "code_size", "max_stack", "clauses"] := by
  constructor <;> decide +kernel

theorem ofItem?_document :
    MethodEntry.ofItem? (item m.document) = if allValid m.texts then some m else none := by
  rw [document_eq, MethodEntry.ofItem?, entries?_record]
  simp only [Option.bind_eq_bind, Option.bind_some, m.keysIn_fields.field_eq keys]
  simp only [fields, List.lookup_append, lookup_always, lookup_numberUnlessZero, String.reduceEq,
    if_true, if_false, Option.none_or, Option.or_none, elim_some_apply]
  simp only [toText?_item, toWord?_wordNumber, elim_wordUnlessZero, elim_countUnlessZero,
    Option.bind_some, allValid, texts, List.all_cons, List.all_nil, Bool.and_true]
  cases m.name.isValid <;> cases m.signature.isValid <;> rfl

theorem fits_document (levels : Nat) : fits m.document (levels + 1) = true := by
  rw [document_eq, m.keysIn_fields.fits_eq keys]
  simp only [fields, fitsFields_append, fitsFields_always, fitsFields_numberUnlessZero]
  rfl

theorem sized_document (h : Short m.texts) : Sized m.document := by
  rw [document_eq]
  refine m.keysIn_fields.sized keys ?_
  simp only [fields, List.forall_mem_append, forall_always]
  have hcount : ∀ key (c : Int64), ∀ f ∈ numberUnlessZero key c.toInt, Sized f.2 := fun key c =>
    forall_numberUnlessZero key _ (sized_count c)
  exact ⟨⟨⟨⟨⟨⟨sized_wordNumber _, h _ (by simp [texts])⟩, h _ (by simp [texts])⟩,
    forall_numberUnlessZero _ _ (sized_wordNumber m.rva)⟩, hcount _ _⟩, hcount _ _⟩, hcount _ _⟩

end MethodEntry

/-! ## Types -/

namespace TypeEntry

/-- The texts of a type and of its methods. -/
def texts (t : TypeEntry) : List Text := [t.name, t.base] ++ t.methods.flatMap MethodEntry.texts

/-- The fields of a type. -/
def documentFields (t : TypeEntry) : List (String × Document) :=
  always "token" (wordNumber t.token.value) ++ always "name" (.text t.name)
    ++ textUnlessEmpty "extends" t.base ++ always "fields" (.number t.fields.toInt)
    ++ (if t.methods.isEmpty then [] else
      always "methods" (.list (t.methods.map MethodEntry.document)))

variable (t : TypeEntry)

theorem document_eq : t.document = .record t.documentFields := rfl

theorem keysIn_fields :
    KeysIn t.documentFields ["token", "name", "extends", "fields", "methods"] :=
  ((((keysIn_always _ _).append (keysIn_always _ _)).append (keysIn_textUnlessEmpty _ _)).append
    (keysIn_always _ _)).append (keysIn_unless _ _ _)

theorem keys : Keys ["token", "name", "extends", "fields", "methods"] := by
  constructor <;> decide +kernel

/-- Methods are left out if there are none, and then none are read. -/
theorem elim_methods (ms : List MethodEntry) :
    (if ms.isEmpty then none else some (Document.list (ms.map MethodEntry.document))).elim
        (some none) (fun d => toList? MethodEntry.ofItem? (item d))
      = if allValid (ms.flatMap MethodEntry.texts) then some (started ms) else none := by
  have hread := toList?_item (fun m => MethodEntry.ofItem?_document m) (some ms)
  rw [ofList?, Option.getD_some, ← allValid_flatMap] at hread
  cases ms with
  | nil => rfl
  | cons m ms => exact hread

theorem ofItem?_document :
    TypeEntry.ofItem? (item t.document) = if allValid t.texts then some t else none := by
  rw [document_eq, TypeEntry.ofItem?, entries?_record]
  simp only [Option.bind_eq_bind, Option.bind_some, t.keysIn_fields.field_eq keys]
  simp only [documentFields, List.lookup_append, lookup_always, lookup_textUnlessEmpty,
    lookup_unless, String.reduceEq, if_true, if_false, Option.none_or, Option.or_none,
    elim_some_apply]
  simp only [toText?_item, toWord?_wordNumber, toCount?_item, elim_textUnlessEmpty, elim_methods,
    Option.bind_some]
  have hvalid : allValid t.texts = (t.name.isValid && t.base.isValid
      && allValid (t.methods.flatMap MethodEntry.texts)) := by
    rw [allValid, texts, List.all_append]
    simp only [List.all_cons, List.all_nil, Bool.and_true]
    rfl
  rw [hvalid]
  cases t.name.isValid <;> cases t.base.isValid
    <;> cases allValid (t.methods.flatMap MethodEntry.texts) <;> try rfl
  simp only [Bool.and_self, if_true, Option.bind_some, getD_started]
  rfl

theorem fits_document (levels : Nat) :
    fits t.document (levels + 3) = decide (t.methods.length ≤ maxMembers) := by
  have hmethods : fits (.list (t.methods.map MethodEntry.document)) (levels + 2)
      = decide (t.methods.length ≤ maxMembers) :=
    fits_ofList?_of_fits (fun m => MethodEntry.fits_document m levels) (some t.methods)
  rw [document_eq, t.keysIn_fields.fits_eq keys]
  simp only [documentFields, fitsFields_append, fitsFields_always, fitsFields_textUnlessEmpty,
    fitsFields_unless, hmethods]
  cases t.methods <;> rfl

theorem sized_document (h : Short t.texts) (hmethods : t.methods.length < 0x10000000000000000) :
    Sized t.document := by
  rw [document_eq]
  refine t.keysIn_fields.sized keys ?_
  simp only [documentFields, List.forall_mem_append, forall_always]
  refine ⟨⟨⟨⟨sized_wordNumber _, h _ (by simp [texts])⟩,
    forall_textUnlessEmpty _ _ (h _ (by simp [texts]))⟩, sized_count _⟩, forall_unless _ _ fun _ => ?_⟩
  refine sized_ofList? (some t.methods) hmethods fun m hm => m.sized_document fun u hu => h u ?_
  exact List.mem_append_right _ (List.mem_flatMap.mpr ⟨m, hm, hu⟩)

end TypeEntry

/-! ## Summaries -/

namespace Summary

/-- All texts of a summary. -/
def texts (s : Summary) : List Text :=
  [s.path, s.assembly, s.version, s.tableStream, s.entryPoint]
    ++ (s.streams.getD []).flatMap StreamEntry.texts ++ (s.tables.getD []).flatMap TableEntry.texts
    ++ (s.types.getD []).flatMap TypeEntry.texts

/-- The lengths of all its lists. -/
def lengths (s : Summary) : List Nat :=
  [(s.streams.getD []).length, (s.tables.getD []).length, (s.types.getD []).length]
    ++ (s.types.getD []).map fun t => t.methods.length

/-- The fields of a summary. -/
def fields (s : Summary) : List (String × Document) :=
  textUnlessEmpty "path" s.path ++ textUnlessEmpty "assembly" s.assembly
    ++ always "metadata_version" (.text s.version) ++ always "table_stream" (.text s.tableStream)
    ++ always "pe32_plus" (.bool s.is64) ++ textUnlessEmpty "entry_point" s.entryPoint
    ++ always "streams" (ofList? StreamEntry.document s.streams)
    ++ always "tables" (ofList? TableEntry.document s.tables)
    ++ always "types" (ofList? TypeEntry.document s.types)
    ++ always "user_strings" (.number s.literals.toInt)

variable (s : Summary)

theorem document_eq : s.document = .record s.fields := rfl

theorem keysIn_fields : KeysIn s.fields ["path", "assembly", "metadata_version", "table_stream",
    "pe32_plus", "entry_point", "streams", "tables", "types", "user_strings"] :=
  (((((((((keysIn_textUnlessEmpty _ _).append (keysIn_textUnlessEmpty _ _)).append
    (keysIn_always _ _)).append (keysIn_always _ _)).append (keysIn_always _ _)).append
    (keysIn_textUnlessEmpty _ _)).append (keysIn_always _ _)).append (keysIn_always _ _)).append
    (keysIn_always _ _)).append (keysIn_always _ _)

theorem keys : Keys ["path", "assembly", "metadata_version", "table_stream", "pe32_plus",
    "entry_point", "streams", "tables", "types", "user_strings"] := by
  constructor <;> decide +kernel

theorem ofItem?_document :
    Summary.ofItem? (item s.document) = if allValid s.texts then some s else none := by
  rw [document_eq, Summary.ofItem?, entries?_record]
  simp only [Option.bind_eq_bind, Option.bind_some, s.keysIn_fields.field_eq keys]
  simp only [fields, List.lookup_append, lookup_always, lookup_textUnlessEmpty, String.reduceEq,
    if_true, if_false, Option.none_or, Option.or_none, elim_some_apply]
  simp only [toText?_item, toBool?_item, toCount?_item, elim_textUnlessEmpty,
    toList?_item StreamEntry.ofItem?_document, toList?_item TableEntry.ofItem?_document,
    toList?_item TypeEntry.ofItem?_document, ← allValid_flatMap, Option.bind_some]
  simp only [bind_ite, ite_ite_none]
  simp only [allValid, texts, List.all_append, List.all_cons, List.all_nil, Bool.and_true,
    Bool.and_assoc]
  rfl

/-- A summary is within the limits if none of its lists is too long. -/
theorem fits_document (levels : Nat) :
    fits s.document (levels + 5) = s.lengths.all fun n => decide (n ≤ maxMembers) := by
  have hstreams := fits_ofList?_of_fits (fun x => StreamEntry.fits_document x (levels + 2)) s.streams
  have htables := fits_ofList?_of_fits (fun x => TableEntry.fits_document x (levels + 2)) s.tables
  have htypes := fits_ofList? (fun x => TypeEntry.fits_document x levels) s.types
  rw [document_eq, s.keysIn_fields.fits_eq keys]
  simp only [fields, fitsFields_append, fitsFields_always, fitsFields_textUnlessEmpty, hstreams,
    htables, htypes, lengths, List.all_append, List.all_cons, List.all_nil, List.all_map]
  simp [fits, Function.comp_def, Bool.and_assoc]

/-- Every text and every list of the summary has a place for its length in a head. -/
structure Held (s : Summary) : Prop where
  texts : Short s.texts
  lengths : ∀ n ∈ s.lengths, n < 0x10000000000000000

theorem sized_document (h : s.Held) : Sized s.document := by
  obtain ⟨htexts, hlengths⟩ := h
  simp only [Short, texts, List.forall_mem_append, List.forall_mem_cons, List.forall_mem_flatMap]
    at htexts
  simp only [lengths, List.forall_mem_append, List.forall_mem_cons, List.forall_mem_map] at hlengths
  obtain ⟨⟨⟨⟨hpath, hassembly, hversion, htable, hentry, -⟩, hstreams⟩, htables⟩, htypes⟩ := htexts
  obtain ⟨⟨hstreamCount, htableCount, htypeCount, -⟩, hmethods⟩ := hlengths
  rw [document_eq]
  refine s.keysIn_fields.sized keys ?_
  simp only [fields, List.forall_mem_append, forall_always]
  have hstreamList : Sized (ofList? StreamEntry.document s.streams) :=
    sized_ofList? s.streams hstreamCount fun x hx => x.sized_document (hstreams x hx)
  have htableList : Sized (ofList? TableEntry.document s.tables) :=
    sized_ofList? s.tables htableCount fun x hx => x.sized_document (htables x hx)
  have htypeList : Sized (ofList? TypeEntry.document s.types) :=
    sized_ofList? s.types htypeCount fun x hx => x.sized_document (htypes x hx) (hmethods x hx)
  exact ⟨⟨⟨⟨⟨⟨⟨⟨⟨forall_textUnlessEmpty _ _ hpath, forall_textUnlessEmpty _ _ hassembly⟩, hversion⟩,
    htable⟩, trivial⟩, forall_textUnlessEmpty _ _ hentry⟩, hstreamList⟩, htableList⟩, htypeList⟩,
    sized_count _⟩

/-- Whether the bytes of a summary are read as an item is a matter of its lists. -/
theorem read_cbor (h : s.Held) : read s.cbor
    = if (s.lengths.all fun n => decide (n ≤ maxMembers)) then some (item s.document) else none := by
  rw [Summary.cbor, read_write _ (s.sized_document h), ← s.fits_document 27]
  rfl

end Summary

/-- **Summaries written and read back.** Reading the bytes of a summary gives the summary itself if
all its texts are valid and none of its lists has more members than the reader takes, and it is
refused otherwise: nothing else is ever read. -/
theorem Summary.cbor_reads_back (s : Summary) (h : s.Held) :
    Summary.ofCbor? s.cbor
      = if (∀ t ∈ s.texts, t.isValid = true) ∧ (∀ n ∈ s.lengths, n ≤ maxMembers) then some s
        else none := by
  rw [Summary.ofCbor?, s.read_cbor h, Option.bind_eq_bind, bind_ite, ofItem?_document, ite_ite_none]
  refine if_congr ?_ rfl rfl
  rw [Bool.and_eq_true, allValid, List.all_eq_true, List.all_eq_true, and_comm]
  simp only [decide_eq_true_eq]

section Samples

/-- A summary in which lists are there, empty and not started, and numbers are zero and not. -/
def sampleSummary : Summary where
  path := Text.empty
  assembly := "A, Version=1.0.0.0"
  version := "v4.0.30319"
  tableStream := "2.0"
  is64 := true
  entryPoint := Text.empty
  streams := none
  tables := some []
  types := some [⟨⟨0x02000001⟩, "N.C", Text.empty, -1, [⟨⟨0x06000001⟩, "M", Text.empty, 0, 300, 8, 0⟩]⟩,
    ⟨⟨0x02000002⟩, Text.empty, "N.C", 70000, []⟩]
  literals := 0

theorem Summary.cbor_reads_back_sample : sampleSummary.Held
    ∧ Summary.ofCbor? sampleSummary.cbor = some sampleSummary
    ∧ Summary.ofCbor? { sampleSummary with path := Text.ofList [0x41, 0xFF] }.cbor = none := by
  have hheld : sampleSummary.Held := by
    constructor
    · unfold Short
      decide +kernel
    · decide +kernel
  have hother : { sampleSummary with path := Text.ofList [0x41, 0xFF] }.Held := by
    constructor
    · unfold Short
      decide +kernel
    · decide +kernel
  refine ⟨hheld, (Summary.cbor_reads_back _ hheld).trans (if_pos ?_),
    (Summary.cbor_reads_back _ hother).trans (if_neg ?_)⟩
  · decide +kernel
  · decide +kernel

/-- A summary of so many types of which nothing is known. -/
def manyTypes (n : Nat) : Summary where
  path := Text.empty
  assembly := Text.empty
  version := Text.empty
  tableStream := Text.empty
  is64 := false
  entryPoint := Text.empty
  streams := none
  tables := none
  types := some (List.replicate n ⟨⟨0⟩, Text.empty, Text.empty, 0, []⟩)
  literals := 0

/-- One type more than the reader takes: the summary is written, and it is not read back. -/
theorem many_types_refused : (∀ t ∈ (manyTypes 131073).texts, t.isValid = true)
    ∧ (manyTypes 131073).Held ∧ Summary.ofCbor? (manyTypes 131073).cbor = none := by
  have htexts : ∀ t ∈ (manyTypes 131073).texts, t = Text.empty := by
    intro t ht
    simp only [Summary.texts, manyTypes, List.mem_append, List.mem_flatMap, List.mem_cons,
      Option.getD_none, Option.getD_some, List.flatMap_nil, List.not_mem_nil, or_false, or_self] at ht
    rcases ht with ht | ⟨entry, hentry, ht⟩
    · exact ht
    · rw [List.eq_of_mem_replicate hentry] at ht
      simpa [TypeEntry.texts] using ht
  have hlengths : ∀ n ∈ (manyTypes 131073).lengths, n = 0 ∨ n = 131073 := by
    intro n hn
    simp only [Summary.lengths, manyTypes, Option.getD_none, Option.getD_some, List.mem_append,
      List.mem_cons, List.mem_map, List.length_nil, List.length_replicate, List.not_mem_nil,
      or_false] at hn
    rcases hn with hn | ⟨entry, hentry, rfl⟩
    · omega
    · rw [List.eq_of_mem_replicate hentry]
      exact Or.inl rfl
  have hheld : (manyTypes 131073).Held := by
    constructor
    · intro t ht
      rw [htexts t ht]
      decide
    · intro n hn
      rcases hlengths n hn with rfl | rfl <;> decide
  refine ⟨fun t ht => by rw [htexts t ht]; exact Text.isValid_ofString "", hheld, ?_⟩
  have hmany : 131073 ∈ (manyTypes 131073).lengths := by
    simp only [Summary.lengths, manyTypes, Option.getD_some, List.length_replicate, List.mem_append,
      List.mem_cons, true_or, or_true]
  rw [Summary.ofCbor?, (manyTypes 131073).read_cbor hheld, if_neg]
  · rfl
  · intro hall
    exact absurd (of_decide_eq_true (List.all_eq_true.mp hall _ hmany)) (by decide)

end Samples

end ManagedImage.Report
