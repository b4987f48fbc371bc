/-
What is read at a place of a heap.

Each statement starts from the bytes that stand at an index: a name with its zero, an entry
with its length in front, sixteen bytes. What else the heap has does not matter, so an index
stays good whatever is appended.
-/
import ManagedImage.Proofs.Bytes.Compressed
import ManagedImage.Proofs.Text.Encoding
import ManagedImage.Metadata.Heap

set_option autoImplicit false

namespace ManagedImage

/-! ## Cutting out -/

theorem Text.ofList_toList (t : Text) : Text.ofList t.toList = t := by
  have h : t.bytes.data.toList.toByteArray = t.bytes := by
    apply ByteArray.ext
    rw [List.data_toByteArray]
  exact congrArg Text.mk h

/-! ## Lengths -/

namespace Read

variable {r : Reader} {bs : List UInt8}

/-- What is held at the position is what the reader looks at first. -/
theorem ahead_holds (h : r.region.Holds r.offset bs) (hfour : bs.length ≤ 4) :
    ∃ more, r.ahead 4 = bs ++ more := by
  have hfits := h.fits
  have hremaining : bs.length ≤ r.remaining := by
    rw [Reader.remaining]
    omega
  refine ⟨(r.ahead 4).drop bs.length, ?_⟩
  have htake : (r.ahead 4).take bs.length = bs := by
    have hlen : ((r.ahead 4).take bs.length).length = bs.length := by
      rw [List.length_take, Reader.ahead, List.length_map, List.length_range]
      omega
    refine List.ext_getElem hlen fun k hk hk' => ?_
    rw [List.getElem_take]
    simp only [Reader.ahead, List.getElem_map, List.getElem_range]
    exact h.byte hk'
  calc r.ahead 4 = (r.ahead 4).take bs.length ++ (r.ahead 4).drop bs.length :=
        (List.take_append_drop _ _).symm
    _ = bs ++ (r.ahead 4).drop bs.length := by rw [htake]

theorem lengthField_holds {n : Nat} (hn : n ≤ Compressed.maxValue)
    (h : r.region.Holds r.offset (Compressed.lengthBytes n)) :
    Read.lengthField r = .ok n (r.advance (Compressed.lengthBytes n).length) := by
  have hfour : (Compressed.lengthBytes n).length ≤ 4 := by
    unfold Compressed.lengthBytes
    split
    · exact Nat.le_of_ble_eq_true rfl
    · split <;> exact Nat.le_of_ble_eq_true rfl
  obtain ⟨more, hmore⟩ := ahead_holds h hfour
  have hscan := Compressed.scanLength_of_scan (Compressed.scan_lengthBytes hn more)
  simp only [Read.lengthField, Read.scanned, EStateM.bind_apply, EStateM.get_apply, hmore, hscan,
    EStateM.set_apply, EStateM.pure_apply]

end Read

/-! ## Entries -/

section Entries

variable {g : Region} {i : Nat} {data : List UInt8}

/-- The bytes of an entry are read back. -/
theorem Region.entry_holds (hn : data.length ≤ Compressed.maxValue) (what : String)
    (h : g.Holds i (Compressed.lengthBytes data.length ++ data)) :
    g.entry i what = .ok data.toByteArray := by
  have hfits := h.fits
  have hpos := List.length_pos_iff.mpr (Compressed.lengthBytes_ne_nil data.length)
  rw [List.length_append] at hfits
  have hin : ¬ g.len ≤ i := by omega
  have hlength := Read.lengthField_holds (r := g.reader.seekTo i) hn h.left
  have hbytes := Read.bytes_holds
    (r := (g.reader.seekTo i).advance (Compressed.lengthBytes data.length).length) h.right
  rw [Region.entry, if_neg hin, hlength]
  simp only [hbytes]

theorem BlobHeap.get_holds {h : BlobHeap} (hn : data.length ≤ Compressed.maxValue)
    (hheld : h.region.Holds i (Compressed.lengthBytes data.length ++ data)) :
    h.get i = .ok data.toByteArray := by
  have hfits := hheld.fits
  have hpos := List.length_pos_iff.mpr (Compressed.lengthBytes_ne_nil data.length)
  rw [List.length_append] at hfits
  have hsome : ¬ (i = 0 ∧ h.region.len = 0) := by omega
  rw [BlobHeap.get, if_neg hsome, Region.entry_holds hn _ hheld]

theorem GuidHeap.get_holds {h : GuidHeap} {bs : List UInt8} (hi : 0 < i) (hlen : bs.length = 16)
    (hheld : h.region.Holds ((i - 1) * 16) bs) : h.get i = .ok bs.toByteArray := by
  have hslice := hheld.slice
  rw [hlen] at hslice
  have hpos : ¬ i = 0 := by omega
  rw [GuidHeap.get, if_neg hpos]
  have hsixteen : h.region.slice (((i - 1) * 16 : Nat) : Int) 16 = .ok bs.toByteArray := hslice
  rw [hsixteen]

theorem StringHeap.get_holds {h : StringHeap} {s : Text} (hs : ∀ b ∈ s.toList, b ≠ 0)
    (hheld : h.region.Holds i (s.toList ++ [0])) : h.get i = .ok s := by
  have hfits := hheld.fits
  rw [List.length_append, List.length_singleton] at hfits
  have hsome : ¬ (i = 0 ∧ h.region.len = 0) := by omega
  have hin : ¬ h.region.len ≤ i := by omega
  rw [StringHeap.get, if_neg hsome, if_neg hin, Region.findZero?_holds s.toList i hs hheld]
  simp only [hheld.left.text, Text.ofList_toList]

end Entries

end ManagedImage
