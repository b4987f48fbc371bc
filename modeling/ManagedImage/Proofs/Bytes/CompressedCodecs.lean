/-
The codecs of compressed integers against each other.

Three readers take a number from the front of some bytes: the decoder of
signatures, the sequential reader of compressed integers and the one of heap
lengths. The sequential ones are the two scans, followed by what they make of a
fault, and the decoder finds what the first scan finds (`decode_cons`). The scans
look at four bytes at most, so a sequential reader, which never looks further,
finds what the scan of everything unread finds (`Read.scanned_eq`). Below the lead
byte `0xE0` the two scans are one; from there on they part.

A signed number is written as an unsigned one: its two's complement in as many
bits as the form has, rotated left by one (`rotateSign_eq_rotateLeft`). The sign
then stands in the lowest bit, and the width of the form says where it goes back.
-/
import ManagedImage.Proofs.Bytes.Window
import ManagedImage.Proofs.Metadata.Heaps

set_option autoImplicit false

namespace ManagedImage

/-! ## What is left to read -/

namespace Reader

/-- The unread bytes as a list. -/
def unread (r : Reader) : List UInt8 := r.rest.data.toList

theorem length_unread (r : Reader) : r.unread.length = r.remaining := by
  have hbounded := r.region.bounded
  have hsize : r.unread.length = r.rest.size := Array.length_toList
  rw [hsize, rest, ByteArray.size_extract, remaining]
  omega

theorem getElem_unread {r : Reader} {i : Nat} (h : i < r.unread.length) :
    r.unread[i] = r.region.byte (r.offset + i) := by
  have hbounded := r.region.bounded
  have hin : i < r.remaining := by rwa [length_unread] at h
  rw [remaining] at hin
  have hsize : i < r.rest.size := by rwa [unread, Array.length_toList] at h
  rw [Region.byte, if_pos (by omega), byteAt, dif_pos (by omega)]
  show r.rest[i] = _
  simp only [rest, ByteArray.getElem_extract, Nat.add_assoc]

/-- Looking ahead shows the first of the unread bytes. -/
theorem ahead_eq_take (r : Reader) (n : Nat) : r.ahead n = r.unread.take n := by
  have hlen : (r.ahead n).length = (r.unread.take n).length := by
    rw [ahead, List.length_map, List.length_range, List.length_take, length_unread]
  refine List.ext_getElem hlen fun i hi hi' => ?_
  have hin : i < r.unread.length := by
    rw [List.length_take] at hi'
    omega
  rw [List.getElem_take, getElem_unread hin]
  simp only [ahead, List.getElem_map, List.getElem_range]

theorem unread_ofBytes (bs : List UInt8) : (ofBytes bs.toByteArray).unread = bs := by
  have hrest : (ofBytes bs.toByteArray).rest = bs.toByteArray := by
    show bs.toByteArray.extract (0 + 0) (0 + bs.toByteArray.size) = bs.toByteArray
    rw [Nat.zero_add, Nat.zero_add, ByteArray.extract_zero_size]
  rw [unread, hrest, List.data_toByteArray]

end Reader

namespace Compressed

variable {v n : Nat} {bs : List UInt8}

/-! ## Lead bytes -/

/-- Whatever starts with `0xC0` or more is four bytes of a heap length. -/
theorem scanLength_used {a : UInt8} {rest : List UInt8} (ha : 0xC0 ≤ a.toNat)
    (h : scanLength (a :: rest) = .value v n) : n = 4 := by
  have h80 : ¬ a < 0x80 := Nat.not_lt.mpr (Nat.le_trans (by decide) ha)
  have hC0 : ¬ a < 0xC0 := Nat.not_lt.mpr ha
  unfold scanLength at h
  simp only [if_neg h80, if_neg hC0] at h
  rcases rest with - | ⟨b, - | ⟨c, - | ⟨d, rest⟩⟩⟩
  · cases h
  · cases h
  · cases h
  · exact (Scan.value.inj h).2.symm

/-! ## The decoder of signatures -/

theorem decode_of_fault {f : ByteFault} (h : scan bs = .fault f n) (hnull : bs.head? ≠ some 0xFF) :
    ∃ g, decode bs = .error g := by
  cases bs with
  | nil => exact ⟨truncated, rfl⟩
  | cons a rest =>
    have ha : a ≠ 0xFF := fun heq => hnull (congrArg some heq)
    simp only [decode_cons, if_neg ha, h]
    cases f <;> exact ⟨_, rfl⟩

/-- The null mark is the byte `0xFF`, and nothing else is. -/
theorem decode_eq_none_iff : decode bs = .ok (none, n) ↔ bs.head? = some 0xFF ∧ n = 1 := by
  cases bs with
  | nil =>
    constructor
    · intro h
      cases h
    · rintro ⟨h, -⟩
      cases h
  | cons a rest =>
    by_cases hnull : a = 0xFF
    · subst hnull
      refine ⟨fun h => ⟨rfl, ?_⟩, ?_⟩
      · exact (Prod.mk.inj (Except.ok.inj h)).2.symm
      · rintro ⟨-, rfl⟩
        rfl
    · refine ⟨fun h => ?_, fun h => absurd (Option.some.inj h.1) hnull⟩
      simp only [decode_cons, if_neg hnull] at h
      cases hscan : scan (a :: rest) with
      | value w m =>
        rw [hscan] at h
        cases h
      | fault f m =>
        rw [hscan] at h
        cases f <;> cases h

/-! ## The shortest form -/

theorem length_lengthBytes (v : Nat) :
    (lengthBytes v).length = if v ≤ 0x7F then 1 else if v ≤ 0x3FFF then 2 else 4 := by
  unfold lengthBytes
  split
  · rfl
  · split <;> rfl

/-- No form of a number takes fewer bytes than the one it is written in. -/
theorem length_lengthBytes_le (h : scan bs = .value v n) : (lengthBytes v).length ≤ n := by
  rw [length_lengthBytes]
  rcases scan_cases h with ⟨a, rest, -, ha, rfl, rfl⟩ | ⟨a, b, rest, -, -, -, rfl, rfl⟩
    | ⟨a, b, c, d, rest, -, -, -, rfl, rfl⟩
  · exact Nat.le_of_eq (if_pos (by omega))
  · have hb := b.toNat_lt
    have htwo : two a b ≤ 0x3FFF := by
      rw [two]
      omega
    rw [if_pos htwo]
    split <;> decide
  · split
    · decide
    · split <;> decide

end Compressed

/-! ## Sequential reading -/

namespace Read

variable {scan : List UInt8 → Compressed.Scan}

/-- What becomes of a reader when a scan has found something in its unread bytes. -/
def outcome (r : Reader) : Compressed.Scan → EStateM.Result ByteFault Reader Nat
  | .value v used => .ok v (r.advance used)
  | .fault f used => .error f (r.advance used)

/-- **A sequential reader finds what the scan of all unread bytes finds**, if four are enough for
the scan. -/
theorem scanned_eq (hscan : ∀ bs : List UInt8, scan (bs.take 4) = scan bs) (r : Reader) :
    scanned scan r = outcome r (scan r.unread) := by
  simp only [scanned, EStateM.bind_apply, EStateM.get_apply, Reader.ahead_eq_take, hscan]
  cases scan r.unread with
  | value v used => rfl
  | fault f used => rfl

theorem compressed_eq (r : Reader) : compressed r = outcome r (Compressed.scan r.unread) :=
  scanned_eq Compressed.scan_take_four r

theorem lengthField_eq (r : Reader) : lengthField r = outcome r (Compressed.scanLength r.unread) :=
  scanned_eq Compressed.scanLength_take_four r

end Read

namespace Compressed

/-! ## Agreement -/

/-- The three readers find the number `v` in the first `n` of the unread bytes. -/
structure ReadAlike (r : Reader) (v n : Nat) : Prop where
  decoded : decode r.unread = .ok (some v, n)
  compressed : Read.compressed r = .ok v (r.advance n)
  length : Read.lengthField r = .ok v (r.advance n)

/-- None of the three readers finds a number. -/
structure RefusedAlike (r : Reader) : Prop where
  decoded : ∃ f, decode r.unread = .error f
  compressed : ∃ f r', Read.compressed r = .error f r'
  length : ∃ f r', Read.lengthField r = .error f r'

theorem ReadAlike.of_scan {r : Reader} {v n : Nat} (h : scan r.unread = .value v n) :
    ReadAlike r v n := by
  refine ⟨decode_of_scan h, ?_, ?_⟩
  · rw [Read.compressed_eq, h]
    rfl
  · rw [Read.lengthField_eq, scanLength_of_scan h]
    rfl

theorem alike_of_lead_lt {r : Reader} {a : UInt8} {rest : List UInt8} (h : r.unread = a :: rest)
    (ha : a.toNat < 0xE0) : (∃ v n, ReadAlike r v n) ∨ RefusedAlike r := by
  cases hscan : scan r.unread with
  | value v n => exact Or.inl ⟨v, n, .of_scan hscan⟩
  | fault f n =>
    have hlength : scanLength r.unread = .fault f n := by rw [h, scanLength_eq_scan ha, ← h, hscan]
    refine Or.inr ⟨decode_of_fault hscan ?_, ?_, ?_⟩
    · rw [h]
      intro hnull
      rw [Option.some.inj hnull] at ha
      exact absurd ha (by decide)
    · exact ⟨f, r.advance n, by rw [Read.compressed_eq, hscan]; rfl⟩
    · exact ⟨f, r.advance n, by rw [Read.lengthField_eq, hlength]; rfl⟩

theorem compressed_of_lead_ge {r : Reader} {a : UInt8} {rest : List UInt8}
    (h : r.unread = a :: rest) (ha : 0xE0 ≤ a.toNat) :
    Read.compressed r = .error .badCompressed r := by
  rw [Read.compressed_eq, h, scan_of_lead_ge ha]
  rfl

/-- **The codecs of lengths agree.** -/
theorem length_codecs_agree :
    (∀ v ≤ 0x1FFFFFFF, ∃ bs, encode v = .ok bs ∧ lengthBytes v = bs
        ∧ (∀ (r : Reader) (s : List UInt8), r.unread = bs ++ s → ReadAlike r v bs.length)
        ∧ ∀ (r : Reader) (n : Nat), ReadAlike r v n → bs.length ≤ n)
      ∧ (∀ v, 0x1FFFFFFF < v → ∃ detail, encode v = .error (.invalidInput .signature detail))
      ∧ (∀ (r : Reader) (a : UInt8) (rest : List UInt8), r.unread = a :: rest → a.toNat < 0xE0 →
          (∃ v n, ReadAlike r v n) ∨ RefusedAlike r)
      ∧ (∀ (r : Reader) (a : UInt8) (rest : List UInt8), r.unread = a :: rest → 0xE0 ≤ a.toNat →
          a ≠ 0xFF → decode r.unread = .error (badLead a)
            ∧ Read.compressed r = .error .badCompressed r)
      ∧ (∀ (r : Reader) (n : Nat),
          decode r.unread = .ok (none, n) ↔ r.unread.head? = some 0xFF ∧ n = 1)
      ∧ ∀ (r : Reader) (rest : List UInt8), r.unread = 0xFF :: rest →
          Read.compressed r = .error .badCompressed r
            ∧ ∀ v r', Read.lengthField r = .ok v r' → r' = r.advance 4 := by
  refine ⟨fun v hv => ?_, fun v hv => ?_, fun r a rest => alike_of_lead_lt,
    fun r a rest h ha hnull => ?_, fun r n => decode_eq_none_iff, fun r rest h => ?_⟩
  · refine ⟨lengthBytes v, (encode_eq v).trans (if_pos hv), rfl, fun r s h => ?_, fun r n h => ?_⟩
    · apply ReadAlike.of_scan
      rw [h]
      exact scan_lengthBytes hv s
    · exact length_lengthBytes_le (scan_of_decode h.decoded)
  · exact ⟨_, (encode_eq v).trans (if_neg (Nat.not_le.mpr hv))⟩
  · refine ⟨?_, compressed_of_lead_ge h ha⟩
    simp only [h, decode_cons, if_neg hnull, scan_of_lead_ge ha]
  · refine ⟨compressed_of_lead_ge h (by decide), fun v r' hr => ?_⟩
    rw [Read.lengthField_eq] at hr
    cases hscan : scanLength r.unread with
    | fault f n =>
      rw [hscan] at hr
      cases hr
    | value w n =>
      rw [hscan] at hr
      rw [h] at hscan
      obtain rfl := scanLength_used (by decide) hscan
      cases hr
      rfl

/-- The last number of two bytes and a byte behind it, a number that is too large, a form that is
cut short, a lead byte that starts nothing and the null mark. -/
theorem length_codecs_agree_twoBytes :
    (∃ bs, encode 0x3FFF = .ok bs
        ∧ ReadAlike (.ofBytes (bs ++ [0x55]).toByteArray) 0x3FFF bs.length)
      ∧ (∃ detail, encode 0x20000000 = .error (.invalidInput .signature detail))
      ∧ ((∃ v n, ReadAlike (.ofBytes [0xC0, 0x00, 0x00].toByteArray) v n)
          ∨ RefusedAlike (.ofBytes [0xC0, 0x00, 0x00].toByteArray))
      ∧ Read.compressed (.ofBytes [0xE0, 0, 0, 0].toByteArray)
          = .error .badCompressed (.ofBytes [0xE0, 0, 0, 0].toByteArray)
      ∧ Read.compressed (.ofBytes [0xFF].toByteArray)
          = .error .badCompressed (.ofBytes [0xFF].toByteArray) := by
  obtain ⟨hwritten, hlarge, hlow, hhigh, -, hnull⟩ := length_codecs_agree
  obtain ⟨bs, hbs, -, hread, -⟩ := hwritten 0x3FFF (by decide)
  exact ⟨⟨bs, hbs, hread _ [0x55] (Reader.unread_ofBytes _)⟩, hlarge _ (by decide),
    hlow _ 0xC0 [0, 0] (Reader.unread_ofBytes _) (by decide),
    (hhigh _ 0xE0 [0, 0, 0] (Reader.unread_ofBytes _) (by decide) (by decide)).2,
    (hnull _ [] (Reader.unread_ofBytes _)).1⟩

/-! ## Signed integers -/

section Signed

variable {v : Int} {used : Nat} {bs : List UInt8}

/-- The number of bytes that the range of a signed number asks for. -/
def signedWidth (v : Int) : Nat :=
  if -0x40 ≤ v ∧ v < 0x40 then 1 else if -0x2000 ≤ v ∧ v < 0x2000 then 2 else 4

/-- The sign of a number is the highest bit of its two's complement and the lowest bit of the
rotated form; the value bits are the same in both. -/
theorem exists_sign_and_low {bits : Nat} (h : fitsSigned bits v = true) :
    ∃ sign low, sign < 2 ∧ low < 2 ^ bits
      ∧ (BitVec.ofInt (bits + 1) v).toNat = 2 ^ bits * sign + low
      ∧ rotateSign bits v = 2 * low + sign := by
  obtain ⟨hlo, hhi⟩ := fitsSigned_iff.mp h
  have hpow : 2 ^ (bits + 1) = 2 * 2 ^ bits := Nat.pow_succ'
  rw [BitVec.toNat_ofInt, hpow]
  by_cases hneg : v < 0
  · refine ⟨1, (v + (2 ^ bits : Nat)).toNat, by decide, by omega, ?_, ?_⟩
    · have hturn : v % ((2 * 2 ^ bits : Nat) : Int) = v + (2 * 2 ^ bits : Nat) := by
        rw [← Int.add_emod_right]
        exact Int.emod_eq_of_lt (by omega) (by omega)
      rw [hturn]
      omega
    · rw [rotateSign, if_pos hneg]
      omega
  · refine ⟨0, v.toNat, by decide, by omega, ?_, ?_⟩
    · rw [Int.emod_eq_of_lt (by omega) (by omega)]
      omega
    · rw [rotateSign, if_neg hneg]
      omega

/-- **The rotated form is a rotation** of the two's complement by one bit to the left. -/
theorem rotateSign_eq_rotateLeft {bits : Nat} (hpos : 0 < bits) (h : fitsSigned bits v = true) :
    rotateSign bits v = ((BitVec.ofInt (bits + 1) v).rotateLeft 1).toNat := by
  obtain ⟨sign, low, hsign, hlow, hword, hrotated⟩ := exists_sign_and_low h
  have hone : 1 % (bits + 1) = 1 := Nat.mod_eq_of_lt (by omega)
  have hpow : 2 ^ (bits + 1) = 2 ^ bits * 2 := rfl
  -- The value bits move up, the sign drops out above them and comes in below.
  have hup : (2 ^ bits * sign + low) * 2 % (2 ^ bits * 2) = 2 ^ 1 * low := by
    rw [Nat.mul_mod_mul_right, Nat.mul_add_mod, Nat.mod_eq_of_lt hlow, Nat.mul_comm, Nat.pow_one]
  have hdown : (2 ^ bits * sign + low) / 2 ^ bits = sign := by
    have hzero : low / 2 ^ bits = 0 := Nat.div_eq_of_lt hlow
    show (2 ^ bits * sign + low) / 2 ^ bits = sign
    rw [Nat.mul_add_div (Nat.two_pow_pos bits), hzero, Nat.add_zero]
  rw [BitVec.toNat_rotateLeft, hone, Nat.add_sub_cancel, hword, Nat.shiftLeft_eq, Nat.pow_one,
    Nat.shiftRight_eq_div_pow, hpow, hup, hdown, hrotated,
    ← Nat.two_pow_add_eq_or_of_lt (i := 1) (by omega), Nat.pow_one]

theorem length_encodeSigned (h : encodeSigned v = .ok bs) : bs.length = signedWidth v := by
  have hsix : fitsSigned 6 v = true ↔ -0x40 ≤ v ∧ v < 0x40 := fitsSigned_iff
  have hthirteen : fitsSigned 13 v = true ↔ -0x2000 ≤ v ∧ v < 0x2000 := fitsSigned_iff
  rw [signedWidth]
  rcases encodeSigned_ok h with ⟨h6, rfl⟩ | ⟨h6, h13, rfl⟩ | ⟨h6, h13, -, rfl⟩
  · rw [if_pos (hsix.mp h6)]
    rfl
  · rw [if_neg (mt hsix.mpr h6), if_pos (hthirteen.mp h13)]
    rfl
  · rw [if_neg (mt hsix.mpr h6), if_neg (mt hthirteen.mpr h13)]
    rfl

/-- A signed number is written or refused by whether it is in the widest range. -/
theorem encodeSigned_cases (v : Int) :
    (fitsSigned 28 v = true ∧ ∃ bs, encodeSigned v = .ok bs)
      ∨ (fitsSigned 28 v = false
        ∧ ∃ detail, encodeSigned v = .error (.invalidInput .signature detail)) := by
  have hwiden : ∀ bits ≤ 28, fitsSigned bits v = true → fitsSigned 28 v = true := by
    intro bits hbits h
    have hle : 2 ^ bits ≤ 2 ^ 28 := Nat.pow_le_pow_right (show 0 < 2 by decide) hbits
    obtain ⟨hlo, hhi⟩ := fitsSigned_iff.mp h
    exact fitsSigned_iff.mpr ⟨by omega, by omega⟩
  unfold encodeSigned
  by_cases h6 : fitsSigned 6 v = true
  · exact Or.inl ⟨hwiden 6 (by decide) h6, _, if_pos h6⟩
  · rw [if_neg h6]
    by_cases h13 : fitsSigned 13 v = true
    · exact Or.inl ⟨hwiden 13 (by decide) h13, _, if_pos h13⟩
    · rw [if_neg h13]
      by_cases h28 : fitsSigned 28 v = true
      · exact Or.inl ⟨h28, _, if_pos h28⟩
      · exact Or.inr ⟨Bool.eq_false_iff.mpr h28, _, if_neg h28⟩

/-- What is read back is in the range of the form that it was read from. -/
theorem fitsSigned_unrotate {bits u : Nat} (h : u < 2 * 2 ^ bits) :
    fitsSigned bits (unrotate bits u) = true := by
  rw [fitsSigned_iff, unrotate]
  split
  · constructor <;> omega
  · constructor <;> omega

theorem decodeSigned_range (h : decodeSigned bs = .ok (v, used)) :
    (used = 1 ∨ used = 2 ∨ used = 4) ∧ fitsSigned (signedBits used) v = true := by
  obtain ⟨u, hscan, rfl⟩ := scan_of_decodeSigned h
  rcases scan_cases hscan with ⟨a, rest, -, ha, rfl, rfl⟩ | ⟨a, b, rest, -, hlo, hhi, rfl, rfl⟩
    | ⟨a, b, c, d, rest, -, hlo, hhi, rfl, rfl⟩
  · exact ⟨Or.inl rfl, fitsSigned_unrotate ha⟩
  · have hb := b.toNat_lt
    refine ⟨Or.inr (Or.inl rfl), fitsSigned_unrotate ?_⟩
    show two a b < 0x4000
    rw [two]
    omega
  · have hb := b.toNat_lt
    have hc := c.toNat_lt
    have hd := d.toNat_lt
    refine ⟨Or.inr (Or.inr rfl), fitsSigned_unrotate ?_⟩
    show four 32 a b c d < 0x20000000
    rw [four]
    omega

end Signed

/-- **Signed integers go through their compressed form and back.** The form is the unsigned one of
the two's complement rotated left by one, in seven, fourteen or twenty-nine bits. -/
theorem signed_codec_roundTrip :
    (∀ v : Int, (∃ bs, encodeSigned v = .ok bs) ↔ -0x10000000 ≤ v ∧ v < 0x10000000)
      ∧ (∀ (v : Int) (bs : List UInt8), encodeSigned v = .ok bs →
          bs.length = signedWidth v ∧ ∀ s,
            decodeSigned (bs ++ s) = .ok (v, bs.length)
              ∧ decode (bs ++ s) = .ok
                (some ((BitVec.ofInt (signedBits bs.length + 1) v).rotateLeft 1).toNat, bs.length))
      ∧ ∀ (b : List UInt8) (v : Int) (n : Nat), decodeSigned b = .ok (v, n) →
          (n = 1 ∧ -0x40 ≤ v ∧ v < 0x40) ∨ (n = 2 ∧ -0x2000 ≤ v ∧ v < 0x2000)
            ∨ (n = 4 ∧ -0x10000000 ≤ v ∧ v < 0x10000000) := by
  refine ⟨fun v => ?_, fun v bs h => ⟨length_encodeSigned h, fun s => ⟨?_, ?_⟩⟩, fun b v n h => ?_⟩
  · rcases encodeSigned_cases v with ⟨hfits, hok⟩ | ⟨hfits, detail, herror⟩
    · exact ⟨fun _ => fitsSigned_iff.mp hfits, fun _ => hok⟩
    · constructor
      · rintro ⟨bs, hok⟩
        rw [herror] at hok
        cases hok
      · intro hrange
        rw [fitsSigned_iff.mpr hrange] at hfits
        cases hfits
  · exact decodeSigned_encodeSigned h s
  · obtain ⟨hfits, hscan⟩ := scan_encodeSigned h
    have hpos : 0 < signedBits bs.length := by
      unfold signedBits
      split <;> decide
    rw [decode_of_scan (hscan s), rotateSign_eq_rotateLeft hpos hfits]
  · obtain ⟨rfl | rfl | rfl, hfits⟩ := decodeSigned_range h
    · exact Or.inl ⟨rfl, fitsSigned_iff.mp hfits⟩
    · exact Or.inr (Or.inl ⟨rfl, fitsSigned_iff.mp hfits⟩)
    · exact Or.inr (Or.inr ⟨rfl, fitsSigned_iff.mp hfits⟩)

/-- The least number of two bytes, whose rotated form would have room in one. -/
theorem signed_codec_roundTrip_leastOfTwo :
    encodeSigned (-0x2000) = .ok [0x80, 0x01] ∧ signedWidth (-0x2000) = 2
      ∧ decodeSigned ([0x80, 0x01] ++ [0x55]) = .ok (-0x2000, 2)
      ∧ decode ([0x80, 0x01] ++ [0x55]) = .ok (some 1, 2)
      ∧ (∃ bs, encodeSigned 0xFFFFFFF = .ok bs) := by
  have hbytes : encodeSigned (-0x2000) = .ok [0x80, 0x01] := rfl
  obtain ⟨hrange, hback, -⟩ := signed_codec_roundTrip
  obtain ⟨hwidth, hread⟩ := hback _ _ hbytes
  exact ⟨hbytes, hwidth.symm, (hread [0x55]).1, (hread [0x55]).2, (hrange _).mpr (by decide)⟩

end Compressed

end ManagedImage
