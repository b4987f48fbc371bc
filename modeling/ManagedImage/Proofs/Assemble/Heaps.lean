/-
What the heaps of a builder consist of.

A heap of strings or literals is a run of entries one behind the other, each at the index
its request was answered with (`Chained`). Strings are stored once each, so the run has the
distinct non-empty requests in the order of their first appearance; literals are stored
every time. Of blobs, GUIDs and bodies it is enough to know that they stand where the
answer says.

`Holdings` is the invariant, stated over the journal so far. One store keeps it, and
`holdings_of_build` is what the whole journal gives.
-/
import ManagedImage.Proofs.Assemble.Journal
import ManagedImage.Proofs.Assemble.Run
import Mathlib.Data.List.Nodup

set_option autoImplicit false

namespace ManagedImage.Assemble

/-! ## Runs of entries -/

section Chains

variable {α : Type} {f : α → List UInt8}

/-- The entries stand one behind the other from `start` on, each at its index. -/
def Chained (f : α → List UInt8) : (start : Nat) → List (Nat × α) → Prop
  | _, [] => True
  | start, (i, a) :: rest => i = start ∧ Chained f (start + (f a).length) rest

/-- The bytes of a run of entries. -/
def written (f : α → List UInt8) (es : List (Nat × α)) : List UInt8 := es.flatMap fun e => f e.2

theorem written_concat (es : List (Nat × α)) (e : Nat × α) :
    written f (es ++ [e]) = written f es ++ f e.2 := by
  rw [written, List.flatMap_append, List.flatMap_singleton]
  rfl

theorem Chained.concat : ∀ {es : List (Nat × α)} {start : Nat} (a : α), Chained f start es →
    Chained f start (es ++ [(start + (written f es).length, a)])
  | [], _, _, _ => ⟨rfl, trivial⟩
  | (i, x) :: es, start, a, h => by
    refine ⟨h.1, ?_⟩
    have hlen : start + (written f ((i, x) :: es)).length
        = start + (f x).length + (written f es).length := by
      rw [written, List.flatMap_cons, List.length_append, Nat.add_assoc]
      rfl
    rw [hlen]
    exact Chained.concat a h.2

theorem Chained.start_le : ∀ {es : List (Nat × α)} {start : Nat}, Chained f start es →
    ∀ {e : Nat × α}, e ∈ es → start ≤ e.1
  | (i, x) :: es, start, h, e, he => by
    rcases List.mem_cons.mp he with rfl | htail
    · exact Nat.le_of_eq h.1.symm
    · exact Nat.le_trans (Nat.le_add_right _ _) (Chained.start_le h.2 htail)

/-- No two entries share an index, since each takes at least a byte. -/
theorem Chained.injective (hne : ∀ a, f a ≠ []) : ∀ {es : List (Nat × α)} {start : Nat},
    Chained f start es → ∀ {i : Nat} {a b : α}, (i, a) ∈ es → (i, b) ∈ es → a = b
  | (j, x) :: es, start, h, i, a, b, ha, hb => by
    have hpos := List.length_pos_iff.mpr (hne x)
    have hlater : ∀ c, (i, c) ∈ es → start < i := fun c hc => by
      have hle : start + (f x).length ≤ i := Chained.start_le h.2 hc
      omega
    have hj := h.1
    rcases List.mem_cons.mp ha with heqa | hta <;> rcases List.mem_cons.mp hb with heqb | htb
    · exact (Prod.mk.inj heqa).2.trans (Prod.mk.inj heqb).2.symm
    · have hlt := hlater b htb
      have hi := (Prod.mk.inj heqa).1
      omega
    · have hlt := hlater a hta
      have hi := (Prod.mk.inj heqb).1
      omega
    · exact Chained.injective hne h.2 hta htb

/-- Every entry of a run stands at its index. -/
theorem Chained.holds {g : Region} : ∀ {es : List (Nat × α)} {start : Nat}, Chained f start es →
    g.Holds start (written f es) → ∀ {i : Nat} {a : α}, (i, a) ∈ es → g.Holds i (f a)
  | (j, x) :: es, start, h, hg, i, a, ha => by
    rw [written, List.flatMap_cons] at hg
    rcases List.mem_cons.mp ha with heq | htail
    · obtain ⟨rfl, rfl⟩ := Prod.mk.inj heq
      rw [h.1]
      exact hg.left
    · exact Chained.holds h.2 hg.right htail

end Chains

/-! ## One heap -/

/-- The distinct non-empty strings in the order of their first appearance. -/
def distinct (calls : List (Nat × Text)) : List (Nat × Text) :=
  (calls.filter fun e => !e.2.isEmpty).eraseDups

/-- The bytes of a literal in its heap. -/
def literalEntry (s : Text) : List UInt8 := Builder.entryBytes (Builder.literalBytes s)

/-- The string heap after the requests: each distinct string once, and the index knows it. -/
structure StringsHeld (heap : ByteArray) (index : List (Text × Nat)) (calls : List (Nat × Text)) :
    Prop where
  bytes : heap.data.toList = 0 :: written Builder.stringBytes (distinct calls)
  index : index = ((distinct calls).map Prod.swap).reverse
  chained : Chained Builder.stringBytes 1 (distinct calls)
  once : ((distinct calls).map Prod.snd).Nodup
  empty : ∀ e ∈ calls, e.2.isEmpty = true → e.1 = 0

/-- The blob heap after the requests. -/
structure BlobsHeld (heap : ByteArray) (index : List (List UInt8 × Nat))
    (calls : List (Nat × List UInt8)) : Prop where
  index : ∀ p ∈ index, Stored heap p.2 (Builder.entryBytes p.1)
  stored : ∀ e ∈ calls, Stored heap e.1 (Builder.entryBytes e.2)

/-- The GUID heap after the requests: whole GUIDs, counted from one. -/
structure GuidsHeld (heap : ByteArray) (calls : List (Nat × List UInt8)) : Prop where
  whole : heap.size % 16 = 0
  stored : ∀ e ∈ calls, 0 < e.1 ∧ Stored heap ((e.1 - 1) * 16) (Builder.guidBytes e.2)

/-- The literal heap after the requests: every one of them, in order. -/
structure LiteralsHeld (heap : ByteArray) (calls : List (Nat × Text)) : Prop where
  bytes : heap.data.toList = 0 :: written literalEntry calls
  chained : Chained literalEntry 1 calls

/-- The bodies after the requests, each at an offset that is a multiple of four. -/
def BodiesHeld (heap : ByteArray) (calls : List (Nat × List UInt8)) : Prop :=
  ∀ e ∈ calls, ∃ i, e.1 = Builder.sectionAddress + Builder.bodiesOffset + i ∧ i % 4 = 0
    ∧ Stored heap i e.2

section Steps

variable {b : Builder}

theorem eraseDups_concat {α : Type} [BEq α] [LawfulBEq α] (l : List α) (a : α) :
    (l ++ [a]).eraseDups = if a ∈ l then l.eraseDups else l.eraseDups ++ [a] := by
  rw [List.eraseDups_append]
  by_cases h : a ∈ l
  · rw [if_pos h]
    simp [List.removeAll, h]
  · rw [if_neg h]
    simp [List.removeAll, h, List.eraseDups_cons]

theorem distinct_concat_empty (calls : List (Nat × Text)) {e : Nat × Text}
    (he : e.2.isEmpty = true) : distinct (calls ++ [e]) = distinct calls := by
  rw [distinct, List.filter_append, List.filter_singleton, he]
  rw [Bool.not_true, cond_false, List.append_nil]
  rfl

theorem distinct_concat (calls : List (Nat × Text)) {e : Nat × Text} (he : e.2.isEmpty = false) :
    distinct (calls ++ [e])
      = if e ∈ distinct calls then distinct calls else distinct calls ++ [e] := by
  rw [distinct, List.filter_append, List.filter_singleton, he]
  rw [Bool.not_false, cond_true, eraseDups_concat, distinct]
  simp only [List.mem_eraseDups]

theorem size_eq_of_toList {heap : ByteArray} {bs : List UInt8} (h : heap.data.toList = bs) :
    heap.size = bs.length := by
  rw [← h]
  exact Array.length_toList.symm

section Strings

variable {heap : ByteArray} {index : List (Text × Nat)} {calls : List (Nat × Text)}

theorem StringsHeld.mem_index (h : StringsHeld heap index calls) {s : Text} {i : Nat} :
    (s, i) ∈ index ↔ (i, s) ∈ distinct calls := by
  rw [h.index, List.mem_reverse, List.mem_map]
  constructor
  · rintro ⟨e, he, heq⟩
    rw [← Prod.swap_swap e, heq] at he
    exact he
  · intro he
    exact ⟨(i, s), he, rfl⟩

/-- A request that adds no distinct string leaves the heap as it is. -/
theorem StringsHeld.again (h : StringsHeld heap index calls) {e : Nat × Text}
    (hsame : distinct (calls ++ [e]) = distinct calls) (hempty : e.2.isEmpty = true → e.1 = 0) :
    StringsHeld heap index (calls ++ [e]) := by
  refine ⟨hsame ▸ h.bytes, hsame ▸ h.index, hsame ▸ h.chained, hsame ▸ h.once, ?_⟩
  intro e' he hs
  rcases List.mem_append.mp he with hold | hnew
  · exact h.empty e' hold hs
  · rw [List.mem_singleton.mp hnew] at hs ⊢
    exact hempty hs

/-- A string that the index does not know is appended with its zero. -/
theorem StringsHeld.fresh (h : StringsHeld heap index calls) {s : Text} (hsome : s.isEmpty = false)
    (hlookup : index.lookup s = none) :
    StringsHeld ((heap ++ s.bytes).push 0) ((s, heap.size) :: index)
      (calls ++ [(heap.size, s)]) := by
  have hfresh : s ∉ (distinct calls).map Prod.snd := by
    intro hmem
    obtain ⟨e, he, rfl⟩ := List.mem_map.mp hmem
    rw [List.lookup_eq_none_iff] at hlookup
    exact absurd (hlookup _ (h.mem_index.mpr he)) (by simp)
  have hnot : (heap.size, s) ∉ distinct calls := fun hmem => hfresh (List.mem_map_of_mem hmem)
  have hnew : distinct (calls ++ [(heap.size, s)]) = distinct calls ++ [(heap.size, s)] := by
    rw [distinct_concat calls hsome, if_neg hnot]
  have hsize : heap.size = 1 + (written Builder.stringBytes (distinct calls)).length := by
    rw [size_eq_of_toList h.bytes, List.length_cons, Nat.add_comm]
  refine ⟨?_, ?_, ?_, ?_, ?_⟩
  · rw [hnew, written_concat, ← List.cons_append, ← h.bytes, ByteArray.data_push,
      Array.toList_push, ByteArray.toList_data_append, List.append_assoc]
    rfl
  · rw [hnew, List.map_append, List.reverse_append, h.index]
    rfl
  · rw [hnew, hsize]
    exact h.chained.concat s
  · rw [hnew, List.map_append]
    refine List.nodup_append.mpr ⟨h.once, List.nodup_singleton _, ?_⟩
    intro a ha c hc heq
    rw [List.map_singleton, List.mem_singleton] at hc
    rw [heq, hc] at ha
    exact hfresh ha
  · intro e he hs
    rcases List.mem_append.mp he with hold | hlast
    · exact h.empty e hold hs
    · rw [List.mem_singleton.mp hlast, hsome] at hs
      cases hs

end Strings

theorem StringsHeld.add {calls : List (Nat × Text)} (h : StringsHeld b.strings b.stringIndex calls)
    (s : Text) : StringsHeld (b.addString s).2.strings (b.addString s).2.stringIndex
      (calls ++ [((b.addString s).1, s)]) := by
  rw [Builder.addString]
  by_cases hempty : s.isEmpty = true
  · rw [if_pos hempty]
    exact h.again (distinct_concat_empty calls hempty) fun _ => rfl
  · rw [if_neg hempty]
    have hsome : s.isEmpty = false := Bool.eq_false_iff.mpr hempty
    cases hlookup : b.stringIndex.lookup s with
    | some i =>
      -- The string is there already, and so is its entry.
      have hmem : (i, s) ∈ distinct calls := h.mem_index.mp (Builder.mem_of_lookup hlookup)
      have hsame : distinct (calls ++ [(i, s)]) = distinct calls := by
        rw [distinct_concat calls hsome, if_pos hmem]
      exact h.again hsame fun hs => absurd hs hempty
    | none => exact h.fresh hsome hlookup

theorem BlobsHeld.add {calls : List (Nat × List UInt8)} (h : BlobsHeld b.blobs b.blobIndex calls)
    (data : List UInt8) : BlobsHeld (b.addBlob data).2.blobs (b.addBlob data).2.blobIndex
      (calls ++ [((b.addBlob data).1, data)]) := by
  rw [Builder.addBlob]
  cases hlookup : b.blobIndex.lookup data with
  | some i =>
    refine ⟨h.index, fun e he => ?_⟩
    rcases List.mem_append.mp he with hold | hnew
    · exact h.stored e hold
    · rw [List.mem_singleton.mp hnew]
      exact h.index _ (Builder.mem_of_lookup hlookup)
  | none =>
    have hext := append_extends b.blobs (Builder.entryBytes data)
    have hnew := stored_append b.blobs (Builder.entryBytes data)
    refine ⟨fun p hp => ?_, fun e he => ?_⟩
    · rcases List.mem_cons.mp hp with rfl | hold
      · exact hnew
      · exact (h.index p hold).extend hext
    · rcases List.mem_append.mp he with hold | hlast
      · exact (h.stored e hold).extend hext
      · rw [List.mem_singleton.mp hlast]
        exact hnew

theorem GuidsHeld.add {calls : List (Nat × List UInt8)} (h : GuidsHeld b.guids calls)
    (g : List UInt8) :
    GuidsHeld (b.addGuid g).2.guids (calls ++ [((b.addGuid g).1, g)]) := by
  obtain ⟨hwhole, hpos, hstored⟩ := Builder.addGuid_stored h.whole g
  have hext := append_extends b.guids (Builder.guidBytes g)
  refine ⟨hwhole, fun e he => ?_⟩
  rcases List.mem_append.mp he with hold | hlast
  · exact ⟨(h.stored e hold).1, (h.stored e hold).2.extend hext⟩
  · rw [List.mem_singleton.mp hlast]
    exact ⟨hpos, hstored⟩

theorem LiteralsHeld.add {calls : List (Nat × Text)} (h : LiteralsHeld b.literals calls)
    (s : Text) : LiteralsHeld (b.addLiteral s).2.literals (calls ++ [((b.addLiteral s).1, s)]) := by
  have hsize : b.literals.size = 1 + (written literalEntry calls).length := by
    rw [size_eq_of_toList h.bytes, List.length_cons, Nat.add_comm]
  refine ⟨?_, ?_⟩
  · show (b.literals ++ (literalEntry s).toByteArray).data.toList = _
    rw [written_concat, ← List.cons_append, ← h.bytes, ByteArray.toList_data_append,
      List.toList_data_toByteArray]
  · show Chained literalEntry 1 (calls ++ [(b.literals.size, s)])
    rw [hsize]
    exact h.chained.concat s

theorem BodiesHeld.add {calls : List (Nat × List UInt8)} (h : BodiesHeld b.bodies calls)
    (bytes : List UInt8) :
    BodiesHeld (b.addBody bytes).2.bodies (calls ++ [((b.addBody bytes).1, bytes)]) := by
  intro e he
  rcases List.mem_append.mp he with hold | hlast
  · obtain ⟨i, haddress, hi, hstored⟩ := h e hold
    exact ⟨i, haddress, hi, hstored.extend (append_extends b.bodies _)⟩
  · rw [List.mem_singleton.mp hlast]
    exact b.addBody_stored bytes

end Steps

/-! ## All heaps -/

namespace Store

/-- The string that is asked for. -/
def string? : Store → Option Text
  | .string s => some s
  | _ => none

/-- The blob that is asked for. -/
def blob? : Store → Option (List UInt8)
  | .blob data => some data
  | _ => none

/-- The GUID that is asked for. -/
def guid? : Store → Option (List UInt8)
  | .guid g => some g
  | _ => none

/-- The literal that is asked for. -/
def literal? : Store → Option Text
  | .literal s => some s
  | _ => none

/-- The body that is asked for. -/
def body? : Store → Option (List UInt8)
  | .body bytes => some bytes
  | _ => none

end Store

section Calls

variable {α : Type} {pick : Store → Option α}

/-- The requests of one kind with their answers, in order. -/
def calls (pick : Store → Option α) (js : List (Store × Nat)) : List (Nat × α) :=
  js.filterMap fun e => (pick e.1).map fun a => (e.2, a)

theorem calls_concat_some (js : List (Store × Nat)) {s : Store} {a : α} (v : Nat)
    (h : pick s = some a) : calls pick (js ++ [(s, v)]) = calls pick js ++ [(v, a)] := by
  have hlast : calls pick [(s, v)] = [(v, a)] := by
    rw [calls, List.filterMap_cons, h]
    rfl
  rw [← hlast]
  exact List.filterMap_append

theorem calls_concat_none (js : List (Store × Nat)) {s : Store} (v : Nat) (h : pick s = none) :
    calls pick (js ++ [(s, v)]) = calls pick js := by
  have hlast : calls pick [(s, v)] = [] := by
    rw [calls, List.filterMap_cons, h]
    rfl
  rw [← List.append_nil (calls pick js), ← hlast]
  exact List.filterMap_append

theorem mem_calls {js : List (Store × Nat)} {s : Store} {v : Nat} {a : α} (h : (s, v) ∈ js)
    (hs : pick s = some a) : (v, a) ∈ calls pick js := by
  refine List.mem_filterMap.mpr ⟨(s, v), h, ?_⟩
  rw [hs]
  rfl

end Calls

/-- What the heaps hold after the requests of a journal. -/
structure Holdings (b : Builder) (js : List (Store × Nat)) : Prop where
  strings : StringsHeld b.strings b.stringIndex (calls Store.string? js)
  blobs : BlobsHeld b.blobs b.blobIndex (calls Store.blob? js)
  guids : GuidsHeld b.guids (calls Store.guid? js)
  literals : LiteralsHeld b.literals (calls Store.literal? js)
  bodies : BodiesHeld b.bodies (calls Store.body? js)

theorem holdings_empty : Holdings Builder.empty [] := by
  have hnone : ∀ {α : Type} {P : α → Prop}, ∀ e ∈ ([] : List α), P e :=
    fun e he => absurd he List.not_mem_nil
  exact ⟨⟨rfl, rfl, trivial, List.nodup_nil, hnone⟩, ⟨hnone, hnone⟩, ⟨rfl, hnone⟩,
    ⟨rfl, trivial⟩, hnone⟩

/-- A string is added to the string heap alone. -/
theorem Builder.addString_frame (b : Builder) (s : Text) : (b.addString s).2 = { b with
    strings := (b.addString s).2.strings
    stringIndex := (b.addString s).2.stringIndex } := by
  rw [addString]
  split
  · rfl
  · split <;> rfl

/-- A blob is added to the blob heap alone. -/
theorem Builder.addBlob_frame (b : Builder) (data : List UInt8) : (b.addBlob data).2 = { b with
    blobs := (b.addBlob data).2.blobs
    blobIndex := (b.addBlob data).2.blobIndex } := by
  rw [addBlob]
  split <;> rfl

/-- **One store.** It adds to the heap it is for, and the other four are as they were. -/
theorem Holdings.store {b : Builder} {js : List (Store × Nat)} (h : Holdings b js) (s : Store) :
    Holdings (b.store s).2 (js ++ [(s, (b.store s).1)]) := by
  -- Requests of another kind do not show in the calls of a heap.
  have hnone : ∀ {α : Type} (pick : Store → Option α), pick s = none →
      calls pick (js ++ [(s, (b.store s).1)]) = calls pick js :=
    fun _ hs => calls_concat_none js _ hs
  have hsome : ∀ {α : Type} (pick : Store → Option α) (a : α), pick s = some a →
      calls pick (js ++ [(s, (b.store s).1)]) = calls pick js ++ [((b.store s).1, a)] :=
    fun _ _ hs => calls_concat_some js _ hs
  cases s with
  | string s =>
    have hframe : (b.store (.string s)).2 = _ := b.addString_frame s
    refine ⟨?_, ?_, ?_, ?_, ?_⟩
    · exact hsome Store.string? s rfl ▸ h.strings.add s
    · exact hnone Store.blob? rfl ▸ hframe ▸ h.blobs
    · exact hnone Store.guid? rfl ▸ hframe ▸ h.guids
    · exact hnone Store.literal? rfl ▸ hframe ▸ h.literals
    · exact hnone Store.body? rfl ▸ hframe ▸ h.bodies
  | blob data =>
    have hframe : (b.store (.blob data)).2 = _ := b.addBlob_frame data
    refine ⟨?_, ?_, ?_, ?_, ?_⟩
    · exact hnone Store.string? rfl ▸ hframe ▸ h.strings
    · exact hsome Store.blob? data rfl ▸ h.blobs.add data
    · exact hnone Store.guid? rfl ▸ hframe ▸ h.guids
    · exact hnone Store.literal? rfl ▸ hframe ▸ h.literals
    · exact hnone Store.body? rfl ▸ hframe ▸ h.bodies
  | guid g =>
    refine ⟨?_, ?_, ?_, ?_, ?_⟩
    · exact hnone Store.string? rfl ▸ h.strings
    · exact hnone Store.blob? rfl ▸ h.blobs
    · exact hsome Store.guid? g rfl ▸ h.guids.add g
    · exact hnone Store.literal? rfl ▸ h.literals
    · exact hnone Store.body? rfl ▸ h.bodies
  | literal s =>
    refine ⟨?_, ?_, ?_, ?_, ?_⟩
    · exact hnone Store.string? rfl ▸ h.strings
    · exact hnone Store.blob? rfl ▸ h.blobs
    · exact hnone Store.guid? rfl ▸ h.guids
    · exact hsome Store.literal? s rfl ▸ h.literals.add s
    · exact hnone Store.body? rfl ▸ h.bodies
  | body bytes =>
    refine ⟨?_, ?_, ?_, ?_, ?_⟩
    · exact hnone Store.string? rfl ▸ h.strings
    · exact hnone Store.blob? rfl ▸ h.blobs
    · exact hnone Store.guid? rfl ▸ h.guids
    · exact hnone Store.literal? rfl ▸ h.literals
    · exact hsome Store.body? bytes rfl ▸ h.bodies.add bytes

/-- **A whole journal**, by induction on the requests. -/
theorem Holdings.storeAll : ∀ (ss : List Store) {b : Builder} {js : List (Store × Nat)},
    Holdings b js → Holdings (b.storeAll ss).2 (js ++ (b.storeAll ss).1)
  | [], _, js, h => by
    show Holdings _ (js ++ [])
    rw [List.append_nil]
    exact h
  | s :: ss, b, js, h => by
    have hrest := Holdings.storeAll ss (h.store s)
    rw [List.append_assoc] at hrest
    exact hrest

theorem holdings_of_build {steps : List Step} {results : List Int} {b : Builder}
    (h : build steps = .ok (results, b)) : Holdings b (journal steps) := by
  obtain ⟨hheaps, -, -⟩ := journal_of_build h
  have hall := Holdings.storeAll (steps.flatMap Step.stores) holdings_empty
  rw [← hheaps] at hall
  -- The invariant looks at the heaps alone.
  exact ⟨hall.strings, hall.blobs, hall.guids, hall.literals, hall.bodies⟩

end ManagedImage.Assemble
