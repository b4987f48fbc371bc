/-
Running the steps of a builder.

Nothing a builder has collected is ever taken back: heaps and rows only grow at
their ends. `Extends` says so, and what a step gives (the place of a string, the
number of a row) stays true under it. `Sound` is the invariant that the stores
keep: rows fit their tables, and what the indexes of strings and blobs name is
where they say.

`Build.Runs` is the triple over computations on builders. It asserts that the
computation ends without a fault, keeps `Sound` and extends the builder, so
each operation needs one lemma, and `runs_step` and `build_proper` follow by
composing them.
-/
import ManagedImage.Proofs.Assemble.Rows
import ManagedImage.Proofs.Results
import Mathlib.Data.List.Forall2

set_option autoImplicit false

namespace ManagedImage.Assemble

/-! ## What a heap holds -/

/-- The bytes `bs` stand in the heap from offset `i` on. -/
def Stored (heap : ByteArray) (i : Nat) (bs : List UInt8) : Prop :=
  bs <+: heap.data.toList.drop i

theorem Stored.extend {heap heap' : ByteArray} {i : Nat} {bs : List UInt8}
    (h : Stored heap i bs) (hext : heap.data.toList <+: heap'.data.toList) :
    Stored heap' i bs := by
  obtain ⟨more, hmore⟩ := hext
  rw [Stored, ← hmore, List.drop_append]
  exact h.trans (List.prefix_append _ _)

theorem stored_append (heap : ByteArray) (bs : List UInt8) :
    Stored (heap ++ bs.toByteArray) heap.size bs := by
  have hsize : heap.size = heap.data.toList.length := by rw [Array.length_toList]; rfl
  have hdrop : (heap ++ bs.toByteArray).data.toList.drop heap.size = bs := by
    rw [ByteArray.toList_data_append, List.toList_data_toByteArray, hsize, List.drop_left]
  exact (congrArg (bs <+: ·) hdrop).mpr List.prefix_rfl

theorem Stored.size_le {heap : ByteArray} {i : Nat} {bs : List UInt8} (h : Stored heap i bs)
    (hne : bs ≠ []) : i + bs.length ≤ heap.size := by
  have hlen := h.length_le
  have hpos := List.length_pos_iff.mpr hne
  have hsize : heap.data.toList.length = heap.size := Array.length_toList
  rw [List.length_drop, hsize] at hlen
  omega

theorem append_extends (heap : ByteArray) (bs : List UInt8) :
    heap.data.toList <+: (heap ++ bs.toByteArray).data.toList := by
  rw [ByteArray.toList_data_append]
  exact List.prefix_append _ _

namespace Builder

/-- The bytes of a name in the string heap. -/
def stringBytes (s : Text) : List UInt8 := s.toList ++ [0]

/-- The bytes of an entry with its length in front. -/
def entryBytes (data : List UInt8) : List UInt8 := Compressed.lengthBytes data.length ++ data

/-- The sixteen bytes that stand for a GUID. -/
def guidBytes (g : List UInt8) : List UInt8 := (g ++ zeroBytes 16).take 16

theorem stringBytes_ne_nil (s : Text) : stringBytes s ≠ [] := by
  rw [stringBytes]
  exact List.append_ne_nil_of_right_ne_nil _ (List.cons_ne_nil _ _)

theorem entryBytes_ne_nil (data : List UInt8) : entryBytes data ≠ [] := by
  rw [entryBytes, Compressed.lengthBytes]
  split
  · exact List.cons_ne_nil _ _
  · split <;> exact List.cons_ne_nil _ _

theorem length_guidBytes (g : List UInt8) : (guidBytes g).length = 16 := by
  rw [guidBytes, List.length_take, List.length_append, length_zeroBytes]
  omega

/-! ## The invariant and the order -/

/-- What every builder that the steps reach satisfies. -/
structure Sound (b : Builder) : Prop where
  fit : b.RowsFit
  padding : ∀ t, 0 ≤ (b.rows.get t).padding
  empty_string : Stored b.strings 0 [0]
  strings : ∀ p ∈ b.stringIndex, Stored b.strings p.2 (stringBytes p.1)
  blobs : ∀ p ∈ b.blobIndex, Stored b.blobs p.2 (entryBytes p.1)
  guids : b.guids.size % 16 = 0

/-- Everything collected in `b` is where it was in `c`. -/
structure Extends (b c : Builder) : Prop where
  strings : b.strings.data.toList <+: c.strings.data.toList
  blobs : b.blobs.data.toList <+: c.blobs.data.toList
  literals : b.literals.data.toList <+: c.literals.data.toList
  guids : b.guids.data.toList <+: c.guids.data.toList
  bodies : b.bodies.data.toList <+: c.bodies.data.toList
  explicit : ∀ t, (b.rows.get t).explicit.toList <+: (c.rows.get t).explicit.toList

theorem Extends.rfl {b : Builder} : b.Extends b :=
  ⟨List.prefix_rfl, List.prefix_rfl, List.prefix_rfl, List.prefix_rfl, List.prefix_rfl,
    fun _ => List.prefix_rfl⟩

theorem Extends.trans {b c d : Builder} (hbc : b.Extends c) (hcd : c.Extends d) : b.Extends d :=
  ⟨hbc.strings.trans hcd.strings, hbc.blobs.trans hcd.blobs, hbc.literals.trans hcd.literals,
    hbc.guids.trans hcd.guids, hbc.bodies.trans hcd.bodies,
    fun t => (hbc.explicit t).trans (hcd.explicit t)⟩

theorem Extends.getElem?_explicit {b c : Builder} (h : b.Extends c) {t : TableId} {i : Nat}
    {row : List Nat} (hrow : (b.rows.get t).explicit[i]? = some row) :
    (c.rows.get t).explicit[i]? = some row := by
  rw [← Array.getElem?_toList] at hrow ⊢
  obtain ⟨more, hmore⟩ := h.explicit t
  rw [← hmore, List.getElem?_append_left (List.getElem?_eq_some_iff.mp hrow).1]
  exact hrow

theorem sound_empty : Sound empty := by
  have hrows : ∀ t, empty.rows.get t = ⟨#[], 0⟩ := by
    intro t
    rw [empty, TableMap.get_ofFn]
  refine ⟨?_, ?_, ?_, ?_, ?_, ?_⟩
  · intro t row hrow
    rw [hrows t] at hrow
    exact absurd hrow List.not_mem_nil
  · exact fun t => Int.le_of_eq (congrArg (·.padding) (hrows t)).symm
  · exact List.prefix_rfl
  · exact fun p hp => absurd hp List.not_mem_nil
  · exact fun p hp => absurd hp List.not_mem_nil
  · rfl

/-! ## One operation -/

section Operations

variable {b : Builder}

theorem mem_of_lookup {α : Type} [BEq α] [LawfulBEq α] {l : List (α × Nat)} {a : α} {i : Nat}
    (h : l.lookup a = some i) : (a, i) ∈ l := by
  obtain ⟨before, after, rfl, -⟩ := List.lookup_eq_some_iff.mp h
  exact List.mem_append_right _ (List.mem_cons_self ..)

/-- A string is stored at the index it is given, whether it was there before or not. -/
theorem addString_spec (hb : b.Sound) (s : Text) :
    (b.addString s).2.Sound ∧ b.Extends (b.addString s).2
      ∧ Stored (b.addString s).2.strings (b.addString s).1 (stringBytes s) := by
  rw [addString]
  split
  · next hempty =>
    refine ⟨hb, Extends.rfl, ?_⟩
    -- The empty string is the zero byte the heap starts with.
    have hnil : s.toList = [] := by
      rw [Text.isEmpty, beq_iff_eq] at hempty
      exact List.length_eq_zero_iff.mp (Array.length_toList.trans hempty)
    rw [stringBytes, hnil]
    exact hb.empty_string
  · split
    · next i hi =>
      exact ⟨hb, Extends.rfl, hb.strings _ (mem_of_lookup hi)⟩
    · -- A new string is appended with a zero byte behind it, and remembered.
      have hheap : (b.strings ++ s.bytes).push 0 = b.strings ++ (stringBytes s).toByteArray := by
        apply ByteArray.ext
        apply Array.ext'
        rw [ByteArray.data_push, Array.toList_push, ByteArray.toList_data_append,
          ByteArray.toList_data_append, List.toList_data_toByteArray, stringBytes, List.append_assoc]
        rfl
      simp only [hheap]
      have hext := append_extends b.strings (stringBytes s)
      have hnew := stored_append b.strings (stringBytes s)
      refine ⟨⟨hb.fit, hb.padding, hb.empty_string.extend hext, ?_, hb.blobs, hb.guids⟩,
        ⟨hext, List.prefix_rfl, List.prefix_rfl, List.prefix_rfl, List.prefix_rfl,
          fun _ => List.prefix_rfl⟩, hnew⟩
      intro p hp
      rcases List.mem_cons.mp hp with rfl | hp
      · exact hnew
      · exact (hb.strings p hp).extend hext

/-- A blob is stored at the index it is given. -/
theorem addBlob_spec (hb : b.Sound) (data : List UInt8) :
    (b.addBlob data).2.Sound ∧ b.Extends (b.addBlob data).2
      ∧ Stored (b.addBlob data).2.blobs (b.addBlob data).1 (entryBytes data) := by
  rw [addBlob]
  split
  · next i hi =>
    exact ⟨hb, Extends.rfl, hb.blobs _ (mem_of_lookup hi)⟩
  · have hext := append_extends b.blobs (entryBytes data)
    have hnew := stored_append b.blobs (entryBytes data)
    refine ⟨⟨hb.fit, hb.padding, hb.empty_string, hb.strings, ?_, hb.guids⟩,
      ⟨List.prefix_rfl, hext, List.prefix_rfl, List.prefix_rfl, List.prefix_rfl,
        fun _ => List.prefix_rfl⟩, hnew⟩
    intro p hp
    rcases List.mem_cons.mp hp with rfl | hp
    · exact hnew
    · exact (hb.blobs p hp).extend hext

/-- GUIDs are counted from one, and each takes sixteen bytes. -/
theorem addGuid_stored (hguids : b.guids.size % 16 = 0) (g : List UInt8) :
    (b.addGuid g).2.guids.size % 16 = 0 ∧ 0 < (b.addGuid g).1
      ∧ Stored (b.addGuid g).2.guids (((b.addGuid g).1 - 1) * 16) (guidBytes g) := by
  have hsize : (b.guids ++ (guidBytes g).toByteArray).size = b.guids.size + 16 := by
    rw [ByteArray.size_append, List.size_toByteArray, length_guidBytes]
  have hadd : b.addGuid g = ((b.guids.size + 16) / 16,
      { b with guids := b.guids ++ (guidBytes g).toByteArray }) := by
    rw [← hsize]
    rfl
  have hplace : ((b.guids.size + 16) / 16 - 1) * 16 = b.guids.size := by omega
  rw [hadd]
  refine ⟨?_, by omega, ?_⟩
  · show (b.guids ++ (guidBytes g).toByteArray).size % 16 = 0
    omega
  · show Stored _ (((b.guids.size + 16) / 16 - 1) * 16) _
    rw [hplace]
    exact stored_append b.guids (guidBytes g)

theorem addGuid_spec (hb : b.Sound) (g : List UInt8) :
    (b.addGuid g).2.Sound ∧ b.Extends (b.addGuid g).2 ∧ 0 < (b.addGuid g).1
      ∧ Stored (b.addGuid g).2.guids (((b.addGuid g).1 - 1) * 16) (guidBytes g) := by
  obtain ⟨hguids, hpos, hstored⟩ := addGuid_stored hb.guids g
  exact ⟨⟨hb.fit, hb.padding, hb.empty_string, hb.strings, hb.blobs, hguids⟩,
    ⟨List.prefix_rfl, List.prefix_rfl, List.prefix_rfl, append_extends b.guids (guidBytes g),
      List.prefix_rfl, fun _ => List.prefix_rfl⟩, hpos, hstored⟩

theorem addLiteral_spec (hb : b.Sound) (s : Text) :
    (b.addLiteral s).2.Sound ∧ b.Extends (b.addLiteral s).2
      ∧ Stored (b.addLiteral s).2.literals (b.addLiteral s).1 (entryBytes (literalBytes s)) :=
  ⟨⟨hb.fit, hb.padding, hb.empty_string, hb.strings, hb.blobs, hb.guids⟩,
    ⟨List.prefix_rfl, List.prefix_rfl, append_extends b.literals _, List.prefix_rfl,
      List.prefix_rfl, fun _ => List.prefix_rfl⟩,
    stored_append b.literals _⟩

/-- A body starts on a boundary of four bytes behind the earlier ones. -/
theorem addBody_stored (b : Builder) (body : List UInt8) :
    ∃ i, (b.addBody body).1 = sectionAddress + bodiesOffset + i ∧ i % 4 = 0
      ∧ Stored (b.addBody body).2.bodies i body := by
  refine ⟨b.bodies.size + (4 - b.bodies.size % 4) % 4, ?_, ?_, ?_⟩
  · rw [addBody, ← Nat.add_assoc]
  · omega
  · -- The gap is a part of what was appended; behind it stands the body alone.
    have hall := stored_append b.bodies (zeroBytes ((4 - b.bodies.size % 4) % 4) ++ body)
    obtain ⟨rest, hrest⟩ := hall
    refine ⟨rest, ?_⟩
    show _ = (b.bodies ++ _).data.toList.drop _
    rw [← List.drop_drop, ← hrest, List.append_assoc, List.drop_left' (length_zeroBytes _)]

theorem addBody_spec (hb : b.Sound) (body : List UInt8) :
    (b.addBody body).2.Sound ∧ b.Extends (b.addBody body).2
      ∧ ∃ i, (b.addBody body).1 = sectionAddress + bodiesOffset + i ∧ i % 4 = 0
          ∧ Stored (b.addBody body).2.bodies i body :=
  ⟨⟨hb.fit, hb.padding, hb.empty_string, hb.strings, hb.blobs, hb.guids⟩,
    ⟨List.prefix_rfl, List.prefix_rfl, List.prefix_rfl, List.prefix_rfl,
      append_extends b.bodies _, fun _ => List.prefix_rfl⟩,
    b.addBody_stored body⟩

theorem addRow_spec (hb : b.Sound) {t : TableId} {row : List Nat}
    (hlen : row.length = (cellKinds t).length) : ∃ c, b.addRow t row
        = .ok ((b.rows.get t).explicit.size + 1, c) ∧ c.Sound ∧ b.Extends c
      ∧ (c.rows.get t).explicit[(b.rows.get t).explicit.size]? = some row := by
  rw [addRow, if_neg (fun h => h hlen)]
  simp only [Array.size_push]
  refine ⟨_, rfl, ⟨hb.fit.addRow (if_neg fun h => h hlen), ?_, hb.empty_string, hb.strings, hb.blobs,
    hb.guids⟩,
    ⟨List.prefix_rfl, List.prefix_rfl, List.prefix_rfl, List.prefix_rfl, List.prefix_rfl, ?_⟩, ?_⟩
  · intro u
    rw [TableMap.get_set]
    split
    · exact hb.padding t
    · exact hb.padding u
  · intro u
    rw [TableMap.get_set]
    split
    · next htu =>
      subst htu
      rw [Array.toList_push]
      exact List.prefix_append _ _
    · exact List.prefix_rfl
  · rw [TableMap.get_set, if_pos rfl]
    exact Array.getElem?_push_size

theorem pad_spec (hb : b.Sound) (t : TableId) {n : Int} (hn : 0 ≤ n) :
    (b.pad t n).Sound ∧ b.Extends (b.pad t n) := by
  refine ⟨⟨hb.fit.pad t n, ?_, hb.empty_string, hb.strings, hb.blobs, hb.guids⟩,
    ⟨List.prefix_rfl, List.prefix_rfl, List.prefix_rfl, List.prefix_rfl, List.prefix_rfl, ?_⟩⟩
  · intro u
    rw [pad, TableMap.get_set]
    split
    · exact Int.add_nonneg (hb.padding t) hn
    · exact hb.padding u
  · intro u
    have hsame := explicit_pad b t u n
    exact hsame ▸ List.prefix_rfl

end Operations

end Builder

/-! ## Computations -/

open Builder

/-- On every sound builder the computation ends without a fault, on a sound builder that extends
the first and satisfies `Q` together with the result. -/
def Build.Runs {α : Type} (x : Build α) (Q : α → Builder → Prop) : Prop :=
  ∀ b : Builder, b.Sound → ∃ (a : α) (c : Builder),
    x b = .ok (a, c) ∧ c.Sound ∧ b.Extends c ∧ Q a c

/-- What a cell gives: its number, or the place of what it asked to store. -/
def Cell.Given (b : Builder) : Cell → Nat → Prop
  | .number n, v => v = n
  | .string s, v => Stored b.strings v (stringBytes s)
  | .blob data, v => Stored b.blobs v (entryBytes data)
  | .guid g, v => 0 < v ∧ Stored b.guids ((v - 1) * 16) (guidBytes g)

theorem Cell.Given.extend {b c : Builder} (hbc : b.Extends c) {x : Cell} {v : Nat}
    (h : x.Given b v) : x.Given c v := by
  cases x with
  | number n => exact h
  | string s => exact Stored.extend h hbc.strings
  | blob data => exact Stored.extend h hbc.blobs
  | guid g => exact ⟨h.1, Stored.extend h.2 hbc.guids⟩

/-- A row that was added under a number with the given cells. -/
def RowAdded (b : Builder) (t : TableId) (cells : List Cell) (n : Nat) : Prop :=
  ∃ (i : Nat) (row : List Nat), n = i + 1 ∧ (b.rows.get t).explicit[i]? = some row
    ∧ List.Forall₂ (Cell.Given b) cells row

theorem RowAdded.extend {b c : Builder} (hbc : b.Extends c) {t : TableId} {cells : List Cell}
    {n : Nat} (h : RowAdded b t cells n) : RowAdded c t cells n := by
  obtain ⟨i, row, hn, hrow, hcells⟩ := h
  exact ⟨i, row, hn, hbc.getElem?_explicit hrow, hcells.imp fun _ _ hv => hv.extend hbc⟩

namespace Build

variable {α β : Type}

theorem Runs.weaken {x : Build α} {Q R : α → Builder → Prop} (h : Runs x Q)
    (hQR : ∀ a b, Q a b → R a b) : Runs x R := by
  intro b hb
  obtain ⟨a, c, hx, hc, hbc, ha⟩ := h b hb
  exact ⟨a, c, hx, hc, hbc, hQR a c ha⟩

theorem runs_pure (a : α) : Runs (pure a) fun r _ => r = a := by
  intro b hb
  exact ⟨a, b, rfl, hb, Extends.rfl, rfl⟩

/-- What the second computation ensures, the whole ensures. -/
theorem Runs.bind {x : Build α} {f : α → Build β} {Q : α → Builder → Prop}
    {R : β → Builder → Prop} (hx : Runs x Q) (hf : ∀ a, Runs (f a) R) : Runs (x >>= f) R := by
  intro b hb
  obtain ⟨a, c, hxb, hc, hbc, -⟩ := hx b hb
  obtain ⟨r, d, hfc, hd, hcd, hr⟩ := hf a c hc
  refine ⟨r, d, ?_, hd, hbc.trans hcd, hr⟩
  rw [StateT.bind_apply hxb]
  exact hfc

theorem runs_add {f : Builder → Nat × Builder} {Q : Nat → Builder → Prop}
    (h : ∀ b : Builder, b.Sound → (f b).2.Sound ∧ b.Extends (f b).2 ∧ Q (f b).1 (f b).2) :
    Runs (add f) Q := by
  intro b hb
  obtain ⟨hc, hbc, hq⟩ := h b hb
  exact ⟨(f b).1, (f b).2, rfl, hc, hbc, hq⟩

/-- Setting a field that is neither heap nor table keeps everything. -/
theorem runs_change {f : Builder → Builder}
    (h : ∀ b : Builder, b.Sound → (f b).Sound ∧ b.Extends (f b)) :
    Runs (change f) fun _ _ => True := by
  intro b hb
  obtain ⟨hc, hbc⟩ := h b hb
  exact ⟨0, f b, rfl, hc, hbc, trivial⟩

/-- **A list of computations**, by induction: each result keeps its property under what is done
after it. -/
theorem runs_mapM {f : α → Build β} {Q : Builder → α → β → Prop}
    (hstable : ∀ (b c : Builder) (a : α) (r : β), b.Extends c → Q b a r → Q c a r) :
    ∀ xs : List α, (∀ x ∈ xs, Runs (f x) fun r b => Q b x r) →
      Runs (xs.mapM f) fun rs b => List.Forall₂ (Q b) xs rs := by
  intro xs
  induction xs with
  | nil =>
    intro _ b hb
    exact ⟨[], b, rfl, hb, Extends.rfl, .nil⟩
  | cons x xs ih =>
    intro h b hb
    -- What the first computation ensured is still so after the others.
    obtain ⟨r, c, hx, hc, hbc, hr⟩ := h x (List.mem_cons_self ..) b hb
    obtain ⟨rs, d, hxs, hd, hcd, hrs⟩ := ih (fun y hy => h y (List.mem_cons_of_mem _ hy)) c hc
    refine ⟨r :: rs, d, ?_, hd, hbc.trans hcd, .cons (hstable c d x r hcd hr) hrs⟩
    rw [List.mapM_cons, StateT.bind_apply hx, StateT.bind_apply hxs]
    rfl

theorem runs_cell (x : Cell) : Runs (cell x) fun v b => x.Given b v := by
  cases x with
  | number n => exact (runs_pure n).weaken fun _ _ h => h
  | string s => exact runs_add fun b hb => addString_spec hb s
  | blob data => exact runs_add fun b hb => addBlob_spec hb data
  | guid g => exact runs_add fun b hb => addGuid_spec hb g

/-- A row with a cell of each kind is added behind the rows that are there. -/
theorem runs_row {t : TableId} {cells : List Cell} (hlen : cells.length = (cellKinds t).length) :
    Runs (row t cells) fun n b => RowAdded b t cells n := by
  intro b hb
  obtain ⟨values, c, hvalues, hc, hbc, hgiven⟩ :=
    runs_mapM (fun _ _ _ _ hext h => h.extend hext) cells (fun x _ => runs_cell x) b hb
  obtain ⟨d, hadd, hd, hcd, hrow⟩ := addRow_spec hc (hgiven.length_eq.symm.trans hlen)
  refine ⟨_, d, ?_, hd, hbc.trans hcd,
    ⟨_, values, rfl, hrow, hgiven.imp fun _ _ hv => hv.extend hcd⟩⟩
  -- The cells come first, so the row is added to the builder they leave.
  have hget : (get : Build Builder) c = .ok (c, c) := rfl
  rw [row, StateT.bind_apply hvalues, StateT.bind_apply hget,
    StateT.bind_apply (StateT.lift_apply hadd c)]
  rfl

end Build

/-! ## Steps -/

/-- A piece of a body that can be written: only a tiny header limits the code. -/
def BodyPart.Proper : BodyPart → Prop
  | .tiny code => code.length < 64
  | _ => True

/-- A step that can be carried out: its row has a cell of each kind, its padding adds rows and its
body can be written. -/
def Step.Proper : Step → Prop
  | .row t cells => cells.length = (cellKinds t).length
  | .pad _ n => 0 ≤ n
  | .body parts => ∀ p ∈ parts, p.Proper
  | .method _ _ _ parts? => ∀ parts ∈ parts?, ∀ p ∈ parts, p.Proper
  | .assembly _ version => version.length = 4
  | .assemblyRef _ version => version.length = 4
  | _ => True

/-- What the number of a step says about the builder. -/
def Step.Done (b : Builder) : Step → Int → Prop
  | .string s, r => ∃ v : Nat, r = v ∧ (Cell.string s).Given b v
  | .blob data, r => ∃ v : Nat, r = v ∧ (Cell.blob data).Given b v
  | .guid g, r => ∃ v : Nat, r = v ∧ (Cell.guid g).Given b v
  | .literal s, r => ∃ v : Nat, r = v ∧ Stored b.literals v (entryBytes (literalBytes s))
  | .row t cells, r => ∃ v : Nat, r = v ∧ RowAdded b t cells v
  | .body parts, r => ∃ (bs : List UInt8) (i : Nat), encodeBody parts = .ok bs
      ∧ r = (sectionAddress + bodiesOffset + i : Nat) ∧ i % 4 = 0 ∧ Stored b.bodies i bs
  | _, _ => True

theorem Step.Done.extend {b c : Builder} (hbc : b.Extends c) {s : Step} {r : Int}
    (h : s.Done b r) : s.Done c r := by
  cases s with
  | string _ | blob _ | guid _ =>
    obtain ⟨v, hr, hv⟩ := h
    exact ⟨v, hr, hv.extend hbc⟩
  | literal _ =>
    obtain ⟨v, hr, hv⟩ := h
    exact ⟨v, hr, hv.extend hbc.literals⟩
  | row _ _ =>
    obtain ⟨v, hr, hv⟩ := h
    exact ⟨v, hr, hv.extend hbc⟩
  | body _ =>
    obtain ⟨bs, i, hbs, hr, hi, hstored⟩ := h
    exact ⟨bs, i, hbs, hr, hi, hstored.extend hbc.bodies⟩
  | _ => trivial

theorem encodeBody_proper : ∀ parts : List BodyPart, (∀ p ∈ parts, p.Proper) →
    ∃ bs, encodeBody parts = .ok bs := by
  intro parts
  induction parts with
  | nil => exact fun _ => ⟨[], rfl⟩
  | cons p parts ih =>
    intro h
    have hp : ∃ bs, p.encode = .ok bs := by
      have hproper := h p (List.mem_cons_self ..)
      cases p with
      | tiny code =>
        have hshort : ¬ 64 ≤ code.length := Nat.not_le.mpr hproper
        exact ⟨_, by rw [BodyPart.encode, tinyBody, if_neg hshort]⟩
      | _ => exact ⟨_, rfl⟩
    obtain ⟨first, hfirst⟩ := hp
    obtain ⟨rest, hrest⟩ := ih fun q hq => h q (List.mem_cons_of_mem _ hq)
    obtain ⟨pieces, hpieces, -⟩ := Except.map_ok hrest
    rw [encodeBody, List.mapM_cons, hfirst, hpieces]
    exact ⟨_, rfl⟩

namespace Build

theorem runs_body {parts : List BodyPart} (h : ∀ p ∈ parts, p.Proper) :
    Runs (body parts) fun r b => ∃ (bs : List UInt8) (i : Nat), encodeBody parts = .ok bs
      ∧ r = sectionAddress + bodiesOffset + i ∧ i % 4 = 0 ∧ Stored b.bodies i bs := by
  obtain ⟨bs, hbs⟩ := encodeBody_proper parts h
  intro b hb
  obtain ⟨hc, hbc, i, hi, hmod, hstored⟩ := addBody_spec hb bs
  refine ⟨_, _, ?_, hc, hbc, bs, i, hbs, hi, hmod, hstored⟩
  rw [body, StateT.bind_apply (StateT.lift_apply hbs b)]
  rfl

theorem runs_nextRow (t : TableId) : Runs (nextRow t) fun _ _ => True := by
  intro b hb
  exact ⟨_, b, rfl, hb, Extends.rfl, trivial⟩

/-- The numbers of a version are cells as they are. -/
theorem length_version_cells {version : List Nat} (h : version.length = 4)
    (before after : List Cell) :
    (before ++ version.map Cell.number ++ after).length = before.length + 4 + after.length := by
  rw [List.length_append, List.length_append, List.length_map, h]

/-- The addition of a proper step. -/
theorem runs_addition {s : Step} (h : s.Proper) : Runs (addition s) fun v b => s.Done b v := by
  cases s with
  | setWide _ | setEntryPoint _ | setVersion _ | setWideHeaps _ _ _ | setSorted _ =>
    exact runs_change fun b hb =>
      ⟨⟨hb.fit, hb.padding, hb.empty_string, hb.strings, hb.blobs, hb.guids⟩,
        ⟨List.prefix_rfl, List.prefix_rfl, List.prefix_rfl, List.prefix_rfl, List.prefix_rfl,
          fun _ => List.prefix_rfl⟩⟩
  | pad t n => exact runs_change fun b hb => pad_spec hb t h
  | string s => exact (runs_cell (.string s)).weaken fun v _ hv => ⟨v, rfl, hv⟩
  | blob data => exact (runs_cell (.blob data)).weaken fun v _ hv => ⟨v, rfl, hv⟩
  | guid g => exact (runs_cell (.guid g)).weaken fun v _ hv => ⟨v, rfl, hv⟩
  | literal s =>
    refine runs_add fun b hb => ?_
    obtain ⟨hc, hbc, hstored⟩ := addLiteral_spec hb s
    exact ⟨hc, hbc, _, rfl, hstored⟩
  | row t cells => exact (runs_row h).weaken fun v _ hv => ⟨v, rfl, hv⟩
  | rowCount t => exact fun b hb => ⟨_, b, rfl, hb, Extends.rfl, trivial⟩
  | body parts =>
    refine (runs_body h).weaken fun v b hv => ?_
    obtain ⟨bs, i, hbs, hi, hmod, hstored⟩ := hv
    exact ⟨bs, i, hbs, congrArg Nat.cast hi, hmod, hstored⟩
  -- The rest are rows of a fixed table, some after storing what the row refers to.
  | module name =>
    exact (runs_cell (.guid moduleGuid)).bind fun _ => (runs_row rfl).weaken fun _ _ _ => trivial
  | assembly name version =>
    exact (runs_row (length_version_cells h [_] [_, _, _, _])).weaken fun _ _ _ => trivial
  | assemblyRef name version =>
    exact (runs_row (length_version_cells h [] [_, _, _, _, _])).weaken fun _ _ _ => trivial
  | typeDef flags space name base =>
    exact (runs_nextRow .field).bind fun _ => (runs_nextRow .methodDef).bind fun _ =>
      (runs_row rfl).weaken fun _ _ _ => trivial
  | method flags name sig parts? =>
    have hrest : ∀ address : Nat, Runs (do
        let params ← nextRow .param
        row .methodDef [.number address, .number 0, .number flags, .string name, .blob sig,
          .number params]) fun _ _ => True :=
      fun _ => (runs_nextRow .param).bind fun _ => (runs_row rfl).weaken fun _ _ _ => trivial
    cases parts? with
    | none => exact hrest 0
    | some parts => exact (runs_body (h parts rfl)).bind hrest
  | typeRef _ _ _ | field _ _ _ | param _ _ _ | memberRef _ _ _ | standAloneSig _ | typeSpec _ =>
    exact (runs_row rfl).weaken fun _ _ _ => trivial

/-- **One step.** A proper step is carried out, and its number says where to find what it
added. -/
theorem runs_step {s : Step} (h : s.Proper) : Runs (step s) fun r b => s.Done b r := by
  have hadd := runs_addition h
  have hlift : Runs (do return ((← addition s : Nat) : Int)) fun r b => s.Done b r := by
    intro b hb
    obtain ⟨v, c, hx, hc, hbc, hv⟩ := hadd b hb
    refine ⟨v, c, ?_, hc, hbc, hv⟩
    rw [StateT.bind_apply hx]
    rfl
  cases s with
  | rowCount t => exact fun b hb => ⟨_, b, rfl, hb, Extends.rfl, trivial⟩
  | _ => exact hlift

end Build

/-- **All steps.** Proper steps can be carried out in any order; the builder at the end is sound,
and the number of each step still says where to find what that step added. -/
theorem build_proper {steps : List Step} (h : ∀ s ∈ steps, s.Proper) :
    ∃ (results : List Int) (b : Builder), build steps = .ok (results, b) ∧ b.Sound
      ∧ List.Forall₂ (Step.Done b) steps results := by
  obtain ⟨results, b, hrun, hb, -, hdone⟩ := Build.runs_mapM
    (fun _ _ _ _ hext hd => hd.extend hext) steps (fun s hs => Build.runs_step (h s hs))
    empty sound_empty
  exact ⟨results, b, hrun, hb, hdone⟩

end ManagedImage.Assemble
