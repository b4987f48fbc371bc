/-
What a region holds.

Everything the assembler writes is a concatenation, and everything the readers
do starts at a computed offset. `Region.Holds` is the statement that joins the
two: from this offset on the region holds these bytes. It splits along `++`, it
moves into windows, and a word, a skip or a run of headers that the reader asks
for at that offset is what was written there.

The word lemmas are stated once over the width. A written number comes back
modulo `256 ^ width`; the bounded forms drop the remainder, since most fields
are known to fit.
-/
import ManagedImage.Bytes.Reader
import ManagedImage.Proofs.Results
import Mathlib.Data.List.GetD

set_option autoImplicit false

namespace ManagedImage

/-! ## Bytes and words -/

theorem byteAt_toByteArray (bs : List UInt8) (i : Nat) :
    byteAt bs.toByteArray i = bs.getD i 0 := by
  unfold byteAt
  by_cases h : i < bs.length
  · rw [dif_pos (by rw [List.size_toByteArray]; exact h), List.getElem_toByteArray,
      List.getD_eq_getElem _ _ h]
  · rw [dif_neg (by rw [List.size_toByteArray]; exact h),
      List.getD_eq_default _ _ (Nat.le_of_not_lt h)]

/-- A word is the number of the bytes it is read from. -/
theorem wordAt_eq_leNat (data : ByteArray) (bs : List UInt8) : ∀ i : Nat,
    (∀ (k : Nat) (hk : k < bs.length), byteAt data (i + k) = bs[k]) →
      wordAt data i bs.length = leNat bs := by
  induction bs with
  | nil => intro i _; rfl
  | cons b rest ih =>
    intro i h
    have hb : byteAt data i = b := h 0 (by simp only [List.length_cons]; omega)
    have hrest : wordAt data (i + 1) rest.length = leNat rest := by
      apply ih
      intro k hk
      have hk' := h (k + 1) (by simp only [List.length_cons]; omega)
      rw [show i + 1 + k = i + (k + 1) by omega, hk', List.getElem_cons_succ]
    rw [List.length_cons, wordAt, leNat, hb, hrest]

@[simp] theorem length_zeroBytes (n : Nat) : (zeroBytes n).length = n := by
  rw [zeroBytes, List.length_replicate]

theorem leNat_zeroBytes (n : Nat) : leNat (zeroBytes n) = 0 := by
  induction n with
  | zero => rfl
  | succ n ih =>
    rw [zeroBytes, List.replicate_succ, leNat, ← zeroBytes, ih]
    rfl

/-- Padding is what is missing to the next multiple. -/
theorem length_padTo (n : Nat) (bs : List UInt8) :
    (padTo n bs).length = bs.length + (n - bs.length % n) % n := by
  rw [padTo, List.length_append, length_zeroBytes]

/-- A padded list has a multiple of four bytes. -/
theorem length_padTo_four (bs : List UInt8) : (padTo 4 bs).length % 4 = 0 := by
  rw [length_padTo]
  omega

theorem length_le_padTo (n : Nat) (bs : List UInt8) : bs.length ≤ (padTo n bs).length := by
  rw [length_padTo]
  omega

/-! ## Holding -/

namespace Region

/-- From `start` on the region holds `bs`. -/
structure Holds (g : Region) (start : Nat) (bs : List UInt8) : Prop where
  /-- The bytes end inside the region. -/
  fits : start + bs.length ≤ g.len
  /-- Each byte is there. -/
  byte_eq : ∀ (k : Nat) (hk : k < bs.length), byteAt g.data (g.base + start + k) = bs[k]

/-- A region whose bytes are exactly `bs`. -/
structure Is (g : Region) (bs : List UInt8) : Prop where
  /-- It is as long as the list. -/
  len_eq : g.len = bs.length
  /-- It holds the list from its start. -/
  holds : g.Holds 0 bs

theorem is_whole (bs : List UInt8) : (whole bs.toByteArray).Is bs := by
  refine ⟨List.size_toByteArray, ?_, ?_⟩
  · show 0 + bs.length ≤ bs.toByteArray.size
    rw [List.size_toByteArray]
    omega
  · intro k hk
    show byteAt bs.toByteArray (0 + 0 + k) = bs[k]
    rw [byteAt_toByteArray, show 0 + 0 + k = k by omega, List.getD_eq_getElem _ _ hk]

/-- Holding a concatenation is holding its parts one behind the other. -/
theorem holds_append {g : Region} {start : Nat} {xs ys : List UInt8} :
    g.Holds start (xs ++ ys) ↔ g.Holds start xs ∧ g.Holds (start + xs.length) ys := by
  constructor
  · rintro ⟨hfits, hbytes⟩
    rw [List.length_append] at hfits
    refine ⟨⟨by omega, fun k hk => ?_⟩, ⟨by omega, fun k hk => ?_⟩⟩
    · rw [hbytes k (by rw [List.length_append]; omega), List.getElem_append_left hk]
    · -- The second part starts behind the first, at a place of its own.
      have h := hbytes (xs.length + k) (by rw [List.length_append]; omega)
      rw [List.getElem_append_right (by omega)] at h
      rw [show g.base + (start + xs.length) + k = g.base + start + (xs.length + k) by omega, h]
      congr 1
      omega
  · rintro ⟨hx, hy⟩
    have hxf := hx.fits
    have hyf := hy.fits
    refine ⟨by rw [List.length_append]; omega, fun k hk => ?_⟩
    rw [List.length_append] at hk
    by_cases hlt : k < xs.length
    · rw [hx.byte_eq k hlt, List.getElem_append_left hlt]
    · have h := hy.byte_eq (k - xs.length) (by omega)
      rw [show g.base + (start + xs.length) + (k - xs.length) = g.base + start + k by omega] at h
      rw [h, List.getElem_append_right (by omega)]

theorem Holds.left {g : Region} {start : Nat} {xs ys : List UInt8}
    (h : g.Holds start (xs ++ ys)) : g.Holds start xs := (holds_append.mp h).1

theorem Holds.right {g : Region} {start : Nat} {xs ys : List UInt8}
    (h : g.Holds start (xs ++ ys)) : g.Holds (start + xs.length) ys := (holds_append.mp h).2

/-- The window over held bytes is exactly those bytes, wherever the region starts. -/
theorem Holds.sub {g : Region} {start : Nat} {bs : List UInt8} (h : g.Holds start bs) :
    ∃ w : Region, g.sub (start : Int) (bs.length : Int) = .ok w ∧ w.Is bs := by
  have hf := h.fits
  -- The reader checks signs and the end; what is held passes both checks.
  have hneg : ¬ ((start : Int) < 0 ∨ (bs.length : Int) < 0) := by omega
  have hin : (start : Int).toNat + (bs.length : Int).toNat ≤ g.len := by omega
  refine ⟨_, by rw [Region.sub, if_neg hneg, dif_pos hin], ?_⟩
  refine ⟨by simp only [Int.toNat_natCast], ⟨by simp only [Int.toNat_natCast]; omega, ?_⟩⟩
  intro k hk
  have hb := h.byte_eq k hk
  simp only [Int.toNat_natCast, Nat.add_zero]
  exact hb

/-- The window up to the end starts with what is held at its place. -/
theorem Holds.startingAt {g : Region} {start : Nat} {bs : List UInt8} (h : g.Holds start bs) :
    ∃ w : Region, g.startingAt (start : Int) = .ok w ∧ w.Holds 0 bs := by
  have hf := h.fits
  have hneg : ¬ (start : Int) < 0 := by omega
  have hneg' : ¬ ((start : Int) < 0 ∨ ((g.len - start : Nat) : Int) < 0) := by omega
  have hin : (start : Int).toNat + ((g.len - start : Nat) : Int).toNat ≤ g.len := by
    simp only [Int.toNat_natCast]
    omega
  refine ⟨_, by rw [Region.startingAt, if_neg hneg, Int.toNat_natCast, Region.sub, if_neg hneg',
    dif_pos hin], ?_, ?_⟩
  · simp only [Int.toNat_natCast]
    omega
  · intro k hk
    simp only [Int.toNat_natCast, Nat.add_zero]
    exact h.byte_eq k hk

/-- Of pieces written one behind the other, each lies behind the lengths of those before it. -/
theorem Holds.flatMap {α : Type} {g : Region} {f : α → List UInt8} (xs : List α) :
    ∀ (start : Nat), g.Holds start (xs.flatMap f) → ∀ (k : Nat) (x : α), xs[k]? = some x →
      g.Holds (start + ((xs.take k).map fun y => (f y).length).sum) (f x) := by
  induction xs with
  | nil => intro _ _ k x hx; simp at hx
  | cons y ys ih =>
    intro start h k x hx
    rw [List.flatMap_cons] at h
    cases k with
    | zero =>
      rw [List.getElem?_cons_zero, Option.some.injEq] at hx
      subst hx
      exact h.left
    | succ k =>
      rw [List.getElem?_cons_succ] at hx
      have hk := ih (start + (f y).length) h.right k x hx
      rw [List.take_succ_cons, List.map_cons, List.sum_cons, ← Nat.add_assoc]
      exact hk

/-- A part of a run of zeros is a run of zeros. -/
theorem Holds.zeroBytes_part {g : Region} {start n : Nat} (h : g.Holds start (zeroBytes n))
    (skip width : Nat) (hin : skip + width ≤ n) :
    g.Holds (start + skip) (zeroBytes width) := by
  have hsplit :
      zeroBytes n = zeroBytes skip ++ (zeroBytes width ++ zeroBytes (n - skip - width)) := by
    simp only [zeroBytes, List.replicate_append_replicate]
    congr 1
    omega
  rw [hsplit] at h
  have hpart := h.right.left
  rwa [length_zeroBytes] at hpart

/-! ## Reads that lie inside -/

section Inside

variable {g : Region} {offset : Nat}

theorem check_eq_ok {width : Nat} (h : offset + width ≤ g.len) : g.check offset width = .ok () := by
  rw [check, if_neg (by omega), if_pos (by rw [Int.toNat_natCast]; exact h)]

/-- A word that lies inside is there. -/
theorem word_eq_wordD {width : Nat} (h : offset + width ≤ g.len) :
    g.word width offset = .ok (g.wordD width offset) := by
  rw [word, check_eq_ok h, wordD, if_pos h, Int.toNat_natCast]
  rfl

/-- Bytes that lie inside can be copied. -/
theorem slice_eq_extract {length : Nat} (h : offset + length ≤ g.len) :
    g.slice offset length = .ok (g.data.extract (g.base + offset) (g.base + offset + length)) := by
  rw [slice, Int.toNat_natCast, Int.toNat_natCast, check_eq_ok h]
  rfl

end Inside

/-! ## Words that are held -/

theorem Holds.wordAt {g : Region} {start : Nat} {bs : List UInt8} (h : g.Holds start bs) :
    ManagedImage.wordAt g.data (g.base + start) bs.length = leNat bs :=
  wordAt_eq_leNat g.data bs (g.base + start) h.byte_eq

theorem Holds.wordD {g : Region} {start : Nat} {bs : List UInt8} (h : g.Holds start bs) :
    g.wordD bs.length start = leNat bs := by
  rw [Region.wordD, if_pos h.fits, h.wordAt]

/-- A written number is read back modulo the range of its width. -/
theorem Holds.wordD_leBytes {g : Region} {start width n : Nat}
    (h : g.Holds start (leBytes width n)) : g.wordD width start = n % 256 ^ width := by
  have hw := h.wordD
  rwa [length_leBytes, leNat_leBytes] at hw

/-- Zero bytes are read back as zero. -/
theorem Holds.wordD_zeroBytes {g : Region} {start width : Nat}
    (h : g.Holds start (zeroBytes width)) : g.wordD width start = 0 := by
  have hw := h.wordD
  rwa [length_zeroBytes, leNat_zeroBytes] at hw

theorem Holds.word_leBytes {g : Region} {start width n : Nat}
    (h : g.Holds start (leBytes width n)) :
    g.word width (start : Int) = .ok (n % 256 ^ width) := by
  have hf := h.fits
  rw [length_leBytes] at hf
  rw [word_eq_wordD hf, h.wordD_leBytes]

/-! ## Texts that are held -/

/-- The bytes cut out of the file are the held ones. -/
theorem Holds.extract {g : Region} {start : Nat} {bs : List UInt8} (h : g.Holds start bs) :
    g.data.extract (g.base + start) (g.base + start + bs.length) = bs.toByteArray := by
  have hf := h.fits
  have hg := g.bounded
  -- A region lies inside its file, so nothing is cut off at the end.
  have hsize : (g.data.extract (g.base + start) (g.base + start + bs.length)).size = bs.length := by
    rw [ByteArray.size_extract]
    omega
  refine ByteArray.ext_getElem (by rw [hsize, List.size_toByteArray]) fun k hk hk' => ?_
  rw [hsize] at hk
  have hb := h.byte_eq k hk
  rw [byteAt, dif_pos (by omega)] at hb
  rw [ByteArray.getElem_extract, List.getElem_toByteArray]
  exact hb

theorem Holds.slice {g : Region} {start : Nat} {bs : List UInt8} (h : g.Holds start bs) :
    g.slice (start : Int) (bs.length : Int) = .ok bs.toByteArray := by
  rw [slice_eq_extract h.fits, h.extract]

/-- The text between two places is the held bytes between them. -/
theorem Holds.text {g : Region} {start : Nat} {bs : List UInt8} (h : g.Holds start bs) :
    g.text start (start + bs.length) = Text.ofList bs := by
  rw [Region.text, Text.ofList, Nat.min_eq_left h.fits, ← h.extract, Nat.add_assoc]

theorem Holds.byte {g : Region} {start k : Nat} {bs : List UInt8} (h : g.Holds start bs)
    (hk : k < bs.length) : g.byte (start + k) = bs[k] := by
  have hf := h.fits
  rw [Region.byte, if_pos (by omega), ← h.byte_eq k hk]
  congr 1
  omega

/-- The search for a terminator stops behind a run without zeros. -/
theorem findZero?_holds {g : Region} (xs : List UInt8) : ∀ start : Nat,
    (∀ b ∈ xs, b ≠ 0) → g.Holds start (xs ++ [0]) →
      g.findZero? start = some (start + xs.length) := by
  induction xs with
  | nil =>
    intro start _ h
    have hf := h.fits
    have hb := h.byte (k := 0) (by simp)
    simp only [List.nil_append, List.length_singleton, Nat.add_zero,
      List.getElem_cons_zero] at hf hb
    rw [findZero?, if_pos (by omega), if_pos hb, List.length_nil, Nat.add_zero]
  | cons x xs ih =>
    intro start hne h
    have hf := h.fits
    have hb := h.byte (k := 0) (by simp)
    simp only [List.cons_append, List.length_cons, Nat.add_zero, List.getElem_cons_zero] at hf hb
    have hx : ¬ g.byte start = 0 := by
      rw [hb]
      exact hne x (List.mem_cons_self ..)
    have hrest : g.Holds (start + 1) (xs ++ [0]) := by
      rw [show x :: xs ++ [0] = [x] ++ (xs ++ [0]) from rfl] at h
      exact h.right
    rw [findZero?, if_pos (by omega), if_neg hx,
      ih (start + 1) (fun b hmem => hne b (List.mem_cons_of_mem _ hmem)) hrest, List.length_cons]
    congr 1
    omega

end Region

/-! ## Reading on from a position -/

namespace Read

theorem has_holds {r : Reader} {bs : List UInt8} (h : r.region.Holds r.offset bs) :
    r.has (bs.length : Int) = true := by
  have hf := h.fits
  have hle : (bs.length : Int) ≤ (r.region.len - r.offset : Nat) := by omega
  rw [Reader.has, Reader.remaining, decide_eq_true (Int.natCast_nonneg _), decide_eq_true hle]
  rfl

/-- The next word of a reader that stands on a written number. -/
theorem word_holds {r : Reader} {width n : Nat} (h : r.region.Holds r.offset (leBytes width n)) :
    Read.word width r = .ok (n % 256 ^ width) (r.advance width) := by
  have hh := has_holds h
  have hw := h.wordAt
  rw [length_leBytes] at hh hw
  rw [leNat_leBytes] at hw
  simp only [Read.word, EStateM.bind_apply, EStateM.get_apply, hh, if_true, EStateM.set_apply, hw,
    EStateM.pure_apply]

/-- Bytes that are there can be passed over, whatever they are. -/
theorem skip_holds {r : Reader} {bs : List UInt8} (h : r.region.Holds r.offset bs) :
    Read.skip (bs.length : Int) r = .ok () (r.advance bs.length) := by
  simp only [Read.skip, EStateM.bind_apply, EStateM.get_apply, has_holds h, if_true,
    EStateM.modify_apply, Int.toNat_natCast]

theorem skip_zero (r : Reader) : Read.skip 0 r = .ok () r := by
  have hhas : r.has 0 = true := by
    rw [Reader.has, decide_eq_true (Int.le_refl 0), decide_eq_true (Int.natCast_nonneg _)]
    rfl
  simp only [Read.skip, EStateM.bind_apply, EStateM.get_apply, hhas, if_true, EStateM.modify_apply]
  rfl

theorem bytes_holds {r : Reader} {bs : List UInt8} (h : r.region.Holds r.offset bs) :
    Read.bytes (bs.length : Int) r = .ok bs.toByteArray (r.advance bs.length) := by
  simp only [Read.bytes, EStateM.bind_apply, EStateM.get_apply, has_holds h, if_true,
    EStateM.set_apply, EStateM.pure_apply, Int.toNat_natCast, h.extract]

theorem fixedText_holds {r : Reader} {bs : List UInt8} (h : r.region.Holds r.offset bs) :
    Read.fixedText (bs.length : Int) r
      = .ok (Text.ofList (trimZeros bs)) (r.advance bs.length) := by
  simp only [Read.fixedText, EStateM.bind_apply, bytes_holds h, EStateM.pure_apply,
    List.toList_data_toByteArray]

/-- A text is read up to its terminator, which is passed over. -/
theorem zeroTerminated_holds {r : Reader} {xs : List UInt8} (hne : ∀ b ∈ xs, b ≠ 0)
    (h : r.region.Holds r.offset (xs ++ [0])) :
    Read.zeroTerminated r = .ok (Text.ofList xs) (r.seekTo (r.offset + xs.length + 1)) := by
  have hz := Region.findZero?_holds xs r.offset hne h
  simp only [Read.zeroTerminated, EStateM.bind_apply, EStateM.get_apply, hz, EStateM.set_apply,
    EStateM.pure_apply, h.left.text]

/-- Rounding up a position only saturates near the largest one. -/
theorem alignedUp_four {n : Nat} (h : n < 0x200000000) : Read.alignedUp 4 n = roundUp4 n := by
  rw [Read.alignedUp, if_pos (by omega), roundUp4]

theorem align_four {r : Reader} (h : r.offset < 0x200000000) :
    Read.align 4 r = .ok () (r.seekTo (roundUp4 r.offset)) := by
  simp only [Read.align, EStateM.modify_apply, Reader.seekTo]
  rw [if_pos (by decide), show (4 : Int).toNat = 4 by decide, alignedUp_four h]

end Read

end ManagedImage
