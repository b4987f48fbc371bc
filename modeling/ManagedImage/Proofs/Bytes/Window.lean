/-
What a successful read says.

`Holding` starts from bytes that were written. This file starts from the other
end, from bytes nobody vouches for: a window or a word that was read lies inside
its region, and it is what stands in the list of the region's bytes at that
place. Offsets into the list carry over from a region to its windows
(`toList_of_sub`), so a place found by several cuts is a place in the first list.
-/
import ManagedImage.Proofs.Bytes.Holding

set_option autoImplicit false

namespace ManagedImage

/-- The bytes that are cut out of a file. -/
theorem toList_extract (d : ByteArray) (start n : Nat) :
    (d.extract start (start + n)).data.toList = (d.data.toList.drop start).take n := by
  rw [ByteArray.data_extract, Array.toList_extract, List.extract_eq_take_drop,
    Nat.add_sub_cancel_left]

namespace Region

variable {g w : Region}

theorem length_toList (g : Region) : g.toList.length = g.len := by
  have hg := g.bounded
  have hsize : g.bytes.data.toList.length = g.bytes.size := Array.length_toList
  rw [toList, hsize, bytes, ByteArray.size_extract]
  omega

theorem getElem_toList {i : Nat} (h : i < g.toList.length) :
    g.toList[i] = byteAt g.data (g.base + i) := by
  have hi : i < g.len := by rwa [length_toList] at h
  have hg := g.bounded
  have hsize : i < g.bytes.size := by rwa [toList, Array.length_toList] at h
  show g.bytes[i] = _
  rw [byteAt, dif_pos (by omega)]
  exact ByteArray.getElem_extract _

/-- The bytes of a region are those of its file at its place. -/
theorem toList_eq (g : Region) : g.toList = (g.data.data.toList.drop g.base).take g.len :=
  toList_extract g.data g.base g.len

/-- A region holds what stands at each of its offsets. -/
theorem holds_bytes {start n : Nat} (h : start + n ≤ g.len) :
    g.Holds start ((List.range n).map fun i => g.byte (start + i)) := by
  refine ⟨by rwa [List.length_map, List.length_range], fun k hk => ?_⟩
  rw [List.length_map, List.length_range] at hk
  rw [List.getElem_map, List.getElem_range, byte, if_pos (by omega), Nat.add_assoc]

/-- A window that was cut lies inside, at the place that was asked for. -/
theorem sub_ok {offset length : Int} (h : g.sub offset length = .ok w) :
    0 ≤ offset ∧ 0 ≤ length ∧ offset.toNat + length.toNat ≤ g.len
      ∧ w.data = g.data ∧ w.base = g.base + offset.toNat ∧ w.len = length.toNat := by
  unfold sub at h
  split at h
  · cases h
  · next hneg =>
    split at h
    · next hin =>
      cases h
      exact ⟨by omega, by omega, hin, rfl, rfl, rfl⟩
    · cases h

/-- The bytes of a window are those of the region from its offset on. -/
theorem toList_of_sub {offset length : Nat} (h : g.sub offset length = .ok w) :
    w.toList = (g.toList.drop offset).take length := by
  obtain ⟨-, -, hin, hdata, hbase, hlen⟩ := sub_ok h
  simp only [Int.toNat_natCast] at hin hbase hlen
  apply List.ext_getElem
  · rw [List.length_take, List.length_drop, length_toList, length_toList]
    omega
  · intro i hi hi'
    rw [List.getElem_take, List.getElem_drop, getElem_toList, getElem_toList, hdata, hbase]
    congr 1
    omega

/-- A word that lies inside is the number of the bytes that stand there. -/
theorem wordAt_eq_toList {offset width : Nat} (h : offset + width ≤ g.len) :
    wordAt g.data (g.base + offset) width = leNat ((g.toList.drop offset).take width) := by
  have hlen : ((g.toList.drop offset).take width).length = width := by
    rw [List.length_take, List.length_drop, length_toList]
    omega
  have hword := wordAt_eq_leNat g.data ((g.toList.drop offset).take width) (g.base + offset) <| by
    intro k hk
    rw [List.getElem_take, List.getElem_drop, getElem_toList, Nat.add_assoc]
  rwa [hlen] at hword

theorem wordD_eq_toList {offset width : Nat} (h : offset + width ≤ g.len) :
    g.wordD width offset = leNat ((g.toList.drop offset).take width) := by
  rw [wordD, if_pos h, wordAt_eq_toList h]

theorem wordD_lt (g : Region) (width offset : Nat) : g.wordD width offset < 256 ^ width := by
  unfold wordD
  split
  · exact wordAt_lt _ _ _
  · exact Nat.pow_pos (by decide)

/-- What is asked for lies inside if and only if nothing is reported. -/
theorem check_ok_iff {offset : Int} {width : Nat} :
    g.check offset width = .ok () ↔ 0 ≤ offset ∧ offset.toNat + width ≤ g.len := by
  rw [check]
  by_cases hneg : offset < 0
  · rw [if_pos hneg]
    simp only [reduceCtorEq, false_iff]
    omega
  · by_cases hin : offset.toNat + width ≤ g.len
    · rw [if_neg hneg, if_pos hin]
      exact iff_of_true rfl ⟨by omega, hin⟩
    · rw [if_neg hneg, if_neg hin]
      simp only [reduceCtorEq, false_iff]
      omega

theorem word_ok {width offset v : Nat} (h : g.word width offset = .ok v) :
    offset + width ≤ g.len ∧ v = g.wordD width offset := by
  obtain ⟨⟨⟩, hcheck, h⟩ := Except.bind_ok h
  have hin : offset + width ≤ g.len := (check_ok_iff.mp hcheck).2
  cases h
  rw [wordD, if_pos hin]
  exact ⟨hin, rfl⟩

theorem slice_ok {offset length : Nat} {bs : ByteArray} (h : g.slice offset length = .ok bs) :
    offset + length ≤ g.len
      ∧ bs = g.data.extract (g.base + offset) (g.base + offset + length) := by
  obtain ⟨⟨⟩, hcheck, h⟩ := Except.bind_ok h
  have hin : offset + length ≤ g.len := (check_ok_iff.mp hcheck).2
  cases h
  exact ⟨hin, rfl⟩

/-- The search for a terminator stops at the first zero byte. -/
theorem findZero?_ok {start stop : Nat} (h : g.findZero? start = some stop) :
    start ≤ stop ∧ stop < g.len ∧ g.byte stop = 0
      ∧ ∀ i, start ≤ i → i < stop → g.byte i ≠ 0 := by
  fun_induction g.findZero? start with
  | case1 start hin hzero =>
    obtain rfl := Option.some.inj h
    exact ⟨Nat.le_refl _, hin, hzero, fun i hle hlt => absurd hlt (Nat.not_lt.mpr hle)⟩
  | case2 start hin hzero ih =>
    obtain ⟨hle, hlt, hstop, hbefore⟩ := ih h
    refine ⟨by omega, hlt, hstop, fun i hstart hi => ?_⟩
    by_cases heq : i = start
    · subst heq
      exact hzero
    · exact hbefore i (by omega) hi
  | case3 start hin => cases h

/-- A cell of a width that tables use is read wherever it lies inside. -/
theorem index_eq_wordD {offset width : Nat} (hw : width = 1 ∨ width = 2 ∨ width = 4)
    (h : offset + width ≤ g.len) : g.index offset width = .ok (g.wordD width offset) := by
  have hword := word_eq_wordD h
  rw [index]
  rcases hw with rfl | rfl | rfl <;> exact hword

end Region

namespace Read

variable {r r' : Reader}

/-- What some reads give, without the position that they leave. -/
def result {α : Type} (x : Read α) (r : Reader) : Except ByteFault α :=
  match x r with
  | .ok a _ => .ok a
  | .error f _ => .error f

theorem result_ok {α : Type} {x : Read α} {a : α} (h : x r = .ok a r') :
    x.result r = .ok a := by
  rw [result, h]

/-- Reading a word moves the reader by its width and gives what stands there. -/
theorem word_ok {width v : Nat} (hpos : 0 < width) (h : Read.word width r = .ok v r') :
    r.offset + width ≤ r.region.len ∧ v = r.region.wordD width r.offset
      ∧ r' = r.advance width := by
  simp only [Read.word, EStateM.bind_apply, EStateM.get_apply] at h
  split at h
  · next hhas =>
    rw [Reader.has, Bool.and_eq_true, decide_eq_true_eq, decide_eq_true_eq,
      Reader.remaining] at hhas
    have hin : r.offset + width ≤ r.region.len := by omega
    cases h
    exact ⟨hin, by rw [Region.wordD, if_pos hin], rfl⟩
  · cases h

theorem skip_ok {n : Int} (h : Read.skip n r = .ok () r') : r' = r.advance n.toNat := by
  simp only [Read.skip, EStateM.bind_apply, EStateM.get_apply] at h
  split at h
  · cases h
    rfl
  · cases h

theorem fixedText_ok {n : Nat} {v : Text} (h : Read.fixedText n r = .ok v r') :
    r' = r.advance n := by
  obtain ⟨bs, r₁, hbytes, h⟩ := EStateM.bind_ok h
  cases h
  simp only [Read.bytes, EStateM.bind_apply, EStateM.get_apply] at hbytes
  split at hbytes
  · cases hbytes
    rfl
  · cases hbytes

theorem zeroTerminated_ok {v : Text} (h : Read.zeroTerminated r = .ok v r') :
    ∃ stop, r.region.findZero? r.offset = some stop ∧ v = r.region.text r.offset stop
      ∧ r' = r.seekTo (stop + 1) := by
  simp only [Read.zeroTerminated, EStateM.bind_apply, EStateM.get_apply] at h
  cases hstop : r.region.findZero? r.offset with
  | none =>
    rw [hstop] at h
    cases h
  | some stop =>
    rw [hstop] at h
    cases h
    exact ⟨stop, rfl, rfl, rfl⟩

end Read

end ManagedImage
