/-
Compressed integers, written and read back.

A form is known by its first byte, so a reader that has a whole form before it
does not look behind it. That gives two facts for each reader: it reads back
what was written, whatever follows (`scan_lengthBytes`, `decode_encode`,
`decodeSigned_encodeSigned`), and what it has read once it reads again from those
bytes alone (`scan_take`, `decode_take`, `decodeSigned_take`).

The codecs have a body each. The scan of heap lengths is the other scan, except
for lead bytes from `0xE0` on (`scanLength_eq_scan`). The decoder of signatures
looks at marks and bits where the scans compare and count, and finds the same
but for the null mark (`decode_cons`); so does the encoder, which writes what is
written for a length unless the number is too large (`encode_eq`).
-/
import ManagedImage.Bytes.Compressed

set_option autoImplicit false

namespace ManagedImage.Compressed

variable {n v used : Nat} {bs s : List UInt8}

/-! ## The three forms -/

theorem scan_one (a : UInt8) (h : a.toNat < 0x80) (s : List UInt8) :
    scan (a :: s) = .value a.toNat 1 := by
  have hlt : a < 0x80 := h
  unfold scan
  exact if_pos hlt

theorem scan_two (a b : UInt8) (hlo : 0x80 ≤ a.toNat) (hhi : a.toNat < 0xC0) (s : List UInt8) :
    scan (a :: b :: s) = .value (two a b) 2 := by
  have h1 : ¬ a < 0x80 := Nat.not_lt.mpr hlo
  have h2 : a < 0xC0 := hhi
  unfold scan
  simp only [if_neg h1, if_pos h2]

theorem scan_four (a b c d : UInt8) (hlo : 0xC0 ≤ a.toNat) (hhi : a.toNat < 0xE0)
    (s : List UInt8) : scan (a :: b :: c :: d :: s) = .value (four 32 a b c d) 4 := by
  have h1 : ¬ a < 0x80 := Nat.not_lt.mpr (Nat.le_trans (by decide) hlo)
  have h2 : ¬ a < 0xC0 := Nat.not_lt.mpr hlo
  have h3 : a < 0xE0 := hhi
  unfold scan
  simp only [if_neg h1, if_neg h2, if_pos h3]

/-- A successful scan has seen one of the three forms. -/
theorem scan_cases (h : scan bs = .value v used) :
    (∃ a rest, bs = a :: rest ∧ a.toNat < 0x80 ∧ v = a.toNat ∧ used = 1)
      ∨ (∃ a b rest, bs = a :: b :: rest ∧ 0x80 ≤ a.toNat ∧ a.toNat < 0xC0 ∧ v = two a b ∧ used = 2)
      ∨ ∃ a b c d rest, bs = a :: b :: c :: d :: rest ∧ 0xC0 ≤ a.toNat ∧ a.toNat < 0xE0
          ∧ v = four 32 a b c d ∧ used = 4 := by
  cases bs with
  | nil => cases h
  | cons a rest =>
    unfold scan at h
    dsimp only at h
    by_cases h1 : a < 0x80
    · rw [if_pos h1] at h
      obtain ⟨rfl, rfl⟩ := Scan.value.inj h
      exact Or.inl ⟨a, rest, rfl, h1, rfl, rfl⟩
    · rw [if_neg h1] at h
      by_cases h2 : a < 0xC0
      · rw [if_pos h2] at h
        rcases rest with - | ⟨b, rest⟩
        · cases h
        · obtain ⟨rfl, rfl⟩ := Scan.value.inj h
          exact Or.inr (Or.inl ⟨a, b, rest, rfl, Nat.not_lt.mp h1, h2, rfl, rfl⟩)
      · rw [if_neg h2] at h
        by_cases h3 : a < 0xE0
        · rw [if_pos h3] at h
          rcases rest with - | ⟨b, - | ⟨c, - | ⟨d, rest⟩⟩⟩
          · cases h
          · cases h
          · cases h
          · obtain ⟨rfl, rfl⟩ := Scan.value.inj h
            exact Or.inr (Or.inr ⟨a, b, c, d, rest, rfl, Nat.not_lt.mp h2, h3, rfl, rfl⟩)
        · rw [if_neg h3] at h
          cases h

/-- **A scan looks no further than the form it finds.** -/
theorem scan_take (h : scan bs = .value v used) :
    0 < used ∧ used ≤ bs.length ∧ ∀ s, scan (bs.take used ++ s) = .value v used := by
  rcases scan_cases h with ⟨a, rest, rfl, hlt, rfl, rfl⟩ | ⟨a, b, rest, rfl, hlo, hhi, rfl, rfl⟩ |
    ⟨a, b, c, d, rest, rfl, hlo, hhi, rfl, rfl⟩
  · exact ⟨by decide, by simp, scan_one a hlt⟩
  · exact ⟨by decide, by simp, scan_two a b hlo hhi⟩
  · exact ⟨by decide, by simp, scan_four a b c d hlo hhi⟩

/-! ## The scan of heap lengths -/

theorem scan_take_four (bs : List UInt8) : scan (bs.take 4) = scan bs := by
  rcases bs with - | ⟨a, - | ⟨b, - | ⟨c, - | ⟨d, rest⟩⟩⟩⟩ <;> rfl

theorem scanLength_take_four (bs : List UInt8) : scanLength (bs.take 4) = scanLength bs := by
  rcases bs with - | ⟨a, - | ⟨b, - | ⟨c, - | ⟨d, rest⟩⟩⟩⟩ <;> rfl

/-- **Below the lead byte `0xE0` the two scans are one**, faults included. -/
theorem scanLength_eq_scan {a : UInt8} (h : a.toNat < 0xE0) (rest : List UInt8) :
    scanLength (a :: rest) = scan (a :: rest) := by
  have hlead : a < 0xE0 := h
  unfold scanLength scan
  dsimp only
  by_cases h80 : a < 0x80
  · rw [if_pos h80, if_pos h80]
  · rw [if_neg h80, if_neg h80]
    by_cases hC0 : a < 0xC0
    · rw [if_pos hC0, if_pos hC0]
    · rw [if_neg hC0, if_neg hC0, if_pos hlead]
      have hC0 : 0xC0 ≤ a.toNat := Nat.not_lt.mp hC0
      -- The sixth bit of the lead is not set, so keeping it makes no difference.
      have hlow : a.toNat % 64 = a.toNat % 32 := by omega
      have hfour : ∀ b c d, four 64 a b c d = four 32 a b c d := by
        intro b c d
        rw [four, four, hlow]
      simp only [hfour]

theorem scan_of_lead_ge {a : UInt8} (h : 0xE0 ≤ a.toNat) (rest : List UInt8) :
    scan (a :: rest) = .fault .badCompressed 0 := by
  have h80 : ¬ a < 0x80 := Nat.not_lt.mpr (Nat.le_trans (by decide) h)
  have hC0 : ¬ a < 0xC0 := Nat.not_lt.mpr (Nat.le_trans (by decide) h)
  have hE0 : ¬ a < 0xE0 := Nat.not_lt.mpr h
  unfold scan
  simp only [if_neg h80, if_neg hC0, if_neg hE0]

/-- The length in front of an entry is scanned like any compressed integer. -/
theorem scanLength_of_scan (h : scan bs = .value v used) : scanLength bs = .value v used := by
  rcases scan_cases h with ⟨a, rest, rfl, ha, -, -⟩ | ⟨a, b, rest, rfl, -, hhi, -, -⟩
    | ⟨a, b, c, d, rest, rfl, -, hhi, -, -⟩
  · rw [scanLength_eq_scan (by omega), h]
  · rw [scanLength_eq_scan (by omega), h]
  · rw [scanLength_eq_scan hhi, h]

/-! ## Unsigned -/

theorem lengthBytes_ne_nil (n : Nat) : lengthBytes n ≠ [] := by
  unfold lengthBytes
  split
  · exact List.cons_ne_nil _ _
  · split <;> exact List.cons_ne_nil _ _

/-- The lead byte of the four-byte form. -/
theorem toNat_lead_four (h : n ≤ maxValue) :
    (UInt8.ofNat (n / 0x1000000 % 256) ||| 0xC0).toNat = 0xC0 + n / 0x1000000 := by
  have hlt : n / 0x1000000 < 32 := by
    unfold maxValue at h
    omega
  -- The mark and the five bits of the number do not overlap; there are only 32 of them.
  have hor : ∀ k < 32, (UInt8.ofNat (k % 256) ||| 0xC0).toNat = 0xC0 + k := by decide
  exact hor _ hlt

/-! A number that has room in a form is scanned back from it, whether or not a shorter form would
do. -/

theorem scan_oneByte (h : n < 0x80) (s : List UInt8) :
    scan (UInt8.ofNat n :: s) = .value n 1 := by
  have hn : (UInt8.ofNat n).toNat = n := by
    rw [UInt8.toNat_ofNat']
    omega
  rw [scan_one _ (by omega), hn]

theorem scan_twoBytes (h : n < 0x4000) (s : List UInt8) :
    scan (UInt8.ofNat (0x80 + n / 256) :: UInt8.ofNat n :: s) = .value n 2 := by
  have hlead : (UInt8.ofNat (0x80 + n / 256)).toNat = 0x80 + n / 256 := by
    rw [UInt8.toNat_ofNat']
    omega
  have htwo : two (UInt8.ofNat (0x80 + n / 256)) (UInt8.ofNat n) = n := by
    rw [two, hlead, UInt8.toNat_ofNat']
    omega
  rw [scan_two _ _ (by omega) (by omega), htwo]

theorem scan_fourBytes {lead : UInt8} (hlead : lead.toNat = 0xC0 + n / 0x1000000)
    (h : n < 0x20000000) (s : List UInt8) :
    scan (lead :: UInt8.ofNat (n / 0x10000) :: UInt8.ofNat (n / 256) :: UInt8.ofNat n :: s)
      = .value n 4 := by
  have hfour : four 32 lead (UInt8.ofNat (n / 0x10000)) (UInt8.ofNat (n / 256)) (UInt8.ofNat n)
      = n := by
    simp only [four, hlead, UInt8.toNat_ofNat']
    omega
  rw [scan_four _ _ _ _ (by omega) (by omega), hfour]

/-- **A scan reads back a written length.** -/
theorem scan_lengthBytes (h : n ≤ maxValue) (s : List UInt8) :
    scan (lengthBytes n ++ s) = .value n (lengthBytes n).length := by
  unfold lengthBytes
  by_cases h1 : n ≤ 0x7F
  · rw [if_pos h1]
    exact scan_oneByte (by omega) s
  · rw [if_neg h1]
    by_cases h2 : n ≤ 0x3FFF
    · rw [if_pos h2]
      exact scan_twoBytes (by omega) s
    · rw [if_neg h2]
      have hlead := toNat_lead_four h
      unfold maxValue at h
      exact scan_fourBytes hlead (by omega) s

/-- **The two writers agree** on every number that has a form. -/
theorem encode_eq (n : Nat) : encode n =
    if n ≤ maxValue then .ok (lengthBytes n)
    else .error (.invalidInput .signature
      ("0x" ++ hex n ++ " is too large to compress" : String)) := by
  have hmax : maxValue = 0x1FFFFFFF := rfl
  have h8 : n >>> 8 = n / 0x100 := Nat.shiftRight_eq_div_pow n 8
  have h16 : n >>> 16 = n / 0x10000 := Nat.shiftRight_eq_div_pow n 16
  have h24 : n >>> 24 = n / 0x1000000 := Nat.shiftRight_eq_div_pow n 24
  unfold encode lengthBytes
  by_cases h1 : n ≤ 0x7F
  · rw [if_pos h1, if_pos (by omega), if_pos h1]
  · rw [if_neg h1, if_neg h1]
    by_cases h2 : n ≤ 0x3FFF
    · -- The mark of two bytes does not overlap the six bits of the lead.
      have hmark : ∀ k < 64, UInt8.ofNat k ||| 0x80 = UInt8.ofNat (0x80 + k) := by decide
      rw [if_pos h2, if_pos (by omega), if_pos h2, h8, hmark _ (by omega)]
    · rw [if_neg h2, if_neg h2]
      by_cases h3 : n ≤ maxValue
      · have hlead : n / 0x1000000 % 256 = n / 0x1000000 := Nat.mod_eq_of_lt (by omega)
        rw [if_pos h3, if_pos h3, h8, h16, h24, hlead]
      · rw [if_neg h3, if_neg h3]

theorem encode_eq_ok (h : encode n = .ok bs) : n ≤ maxValue ∧ bs = lengthBytes n := by
  rw [encode_eq] at h
  by_cases hle : n ≤ maxValue
  · rw [if_pos hle] at h
    exact ⟨hle, (Except.ok.inj h).symm⟩
  · rw [if_neg hle] at h
    cases h

theorem scan_encode (h : encode n = .ok bs) (s : List UInt8) :
    scan (bs ++ s) = .value n bs.length := by
  obtain ⟨hle, rfl⟩ := encode_eq_ok h
  exact scan_lengthBytes hle s

theorem encode_ne_nil (h : encode n = .ok bs) : bs ≠ [] := by
  obtain ⟨-, rfl⟩ := encode_eq_ok h
  exact lengthBytes_ne_nil n

/-- The marks of a lead byte tell the ranges that the scans compare it with, and the bits beside
them are what remains of it. -/
theorem lead_marks (a : UInt8) :
    (a &&& 0x80 = 0 ↔ a < 0x80) ∧ (a &&& 0xC0 = 0x80 ↔ ¬ a < 0x80 ∧ a < 0xC0)
      ∧ (a &&& 0xE0 = 0xC0 ↔ ¬ a < 0xC0 ∧ a < 0xE0) ∧ (a &&& 0x3F).toNat = a.toNat % 64
      ∧ (a &&& 0x1F).toNat = a.toNat % 32 := by
  have hall : ∀ i : Fin 256, let a := UInt8.ofFin i
      (a &&& 0x80 = 0 ↔ a < 0x80) ∧ (a &&& 0xC0 = 0x80 ↔ ¬ a < 0x80 ∧ a < 0xC0)
        ∧ (a &&& 0xE0 = 0xC0 ↔ ¬ a < 0xC0 ∧ a < 0xE0) ∧ (a &&& 0x3F).toNat = a.toNat % 64
        ∧ (a &&& 0x1F).toNat = a.toNat % 32 := by
    decide +kernel
  exact hall a.toFin

/-- A byte put in below some bits is counted on. -/
theorem shiftLeft_or_byte (x : Nat) (b : UInt8) : x <<< 8 ||| b.toNat = x * 256 + b.toNat := by
  rw [← Nat.shiftLeft_add_eq_or_of_lt b.toNat_lt, Nat.shiftLeft_eq]

/-- The null mark aside, the decoder finds what the scan finds. -/
theorem decode_cons (a : UInt8) (rest : List UInt8) : decode (a :: rest)
    = if a = 0xFF then .ok (none, 1)
      else match scan (a :: rest) with
        | .value v used => .ok (some v, used)
        | .fault .badCompressed _ => .error (badLead a)
        | .fault _ _ => .error truncated := by
  obtain ⟨hone, htwo, hfour, hsix, hfive⟩ := lead_marks a
  unfold decode scan
  dsimp only
  by_cases hnull : a = 0xFF
  · rw [if_pos hnull, if_pos hnull]
  rw [if_neg hnull, if_neg hnull]
  by_cases h80 : a < 0x80
  · rw [if_pos (hone.mpr h80), if_pos h80]
  rw [if_neg (mt hone.mp h80), if_neg h80]
  by_cases hC0 : a < 0xC0
  · rw [if_pos (htwo.mpr ⟨h80, hC0⟩), if_pos hC0]
    rcases rest with - | ⟨b, rest⟩
    · rfl
    · dsimp only
      rw [shiftLeft_or_byte, hsix, two]
  rw [if_neg fun h => hC0 (htwo.mp h).2, if_neg hC0]
  by_cases hE0 : a < 0xE0
  · rw [if_pos (hfour.mpr ⟨hC0, hE0⟩), if_pos hE0]
    rcases rest with - | ⟨b, - | ⟨c, - | ⟨d, rest⟩⟩⟩
    · rfl
    · rfl
    · rfl
    · -- The bits of the lead move up once for each byte behind it.
      have hbits : (a &&& 0x1F).toNat <<< 24 ||| b.toNat <<< 16 ||| c.toNat <<< 8 ||| d.toNat
          = (((a &&& 0x1F).toNat <<< 8 ||| b.toNat) <<< 8 ||| c.toNat) <<< 8 ||| d.toNat := by
        simp only [Nat.shiftLeft_or_distrib, ← Nat.shiftLeft_add, Nat.reduceAdd]
      dsimp only
      rw [hbits, shiftLeft_or_byte, shiftLeft_or_byte, shiftLeft_or_byte, hfive, four]
  · rw [if_neg fun h => hE0 (hfour.mp h).2, if_neg hE0]

/-- What a scan finds is decoded: no form starts with the null mark. -/
theorem decode_of_scan (h : scan bs = .value v used) : decode bs = .ok (some v, used) := by
  have hlead : ∀ a rest, bs = a :: rest → a.toNat < 0xE0 → decode bs = .ok (some v, used) := by
    rintro a rest rfl hlt
    have hne : a ≠ 0xFF := by
      rintro rfl
      exact absurd hlt (by decide)
    simp only [decode_cons, if_neg hne, h]
  -- In all three forms the first byte is below 0xE0.
  rcases scan_cases h with ⟨a, rest, hbs, hlt, -, -⟩ | ⟨a, b, rest, hbs, -, hhi, -, -⟩ |
    ⟨a, b, c, d, rest, hbs, -, hhi, -, -⟩
  · exact hlead a rest hbs (by omega)
  · exact hlead a _ hbs (by omega)
  · exact hlead a _ hbs hhi

theorem scan_of_decode (h : decode bs = .ok (some v, used)) : scan bs = .value v used := by
  cases bs with
  | nil => cases h
  | cons a rest =>
    rw [decode_cons] at h
    by_cases hnull : a = 0xFF
    · rw [if_pos hnull] at h
      cases h
    · rw [if_neg hnull] at h
      cases hscan : scan (a :: rest) with
      | value w m =>
        rw [hscan] at h
        obtain ⟨hw, rfl⟩ := Prod.mk.inj (Except.ok.inj h)
        rw [Option.some.inj hw]
      | fault f m =>
        rw [hscan] at h
        cases f <;> cases h

theorem decode_encode (h : encode n = .ok bs) (s : List UInt8) :
    decode (bs ++ s) = .ok (some n, bs.length) :=
  decode_of_scan (scan_encode h s)

theorem decode_take (h : decode bs = .ok (some v, used)) :
    0 < used ∧ used ≤ bs.length ∧ ∀ s, decode (bs.take used ++ s) = .ok (some v, used) := by
  obtain ⟨hpos, hle, htake⟩ := scan_take (scan_of_decode h)
  exact ⟨hpos, hle, fun s => decode_of_scan (htake s)⟩

/-! ## Signed -/

/-- The number whose rotated form is `u`, read with the sign of a form of that width. -/
def unrotate (bits u : Nat) : Int :=
  if u % 2 = 1 then ((u / 2 : Nat) : Int) - (2 ^ bits : Nat) else ((u / 2 : Nat) : Int)

theorem decodeSigned_of_scan (h : scan bs = .value v used) :
    decodeSigned bs = .ok (unrotate (signedBits used) v, used) := by
  simp only [decodeSigned, decode_of_scan h]
  rfl

theorem fitsSigned_iff {bits : Nat} {v : Int} :
    fitsSigned bits v = true ↔ -(2 ^ bits : Nat) ≤ v ∧ v < (2 ^ bits : Nat) := by
  rw [fitsSigned, Bool.and_eq_true, decide_eq_true_eq, decide_eq_true_eq]

/-- The rotated form has one bit more than the number, and is undone by `unrotate`. -/
theorem unrotate_rotateSign {bits : Nat} {v : Int} (h : fitsSigned bits v = true) :
    rotateSign bits v < 2 ^ (bits + 1) ∧ unrotate bits (rotateSign bits v) = v := by
  obtain ⟨hlo, hhi⟩ := fitsSigned_iff.mp h
  rw [Nat.pow_succ]
  unfold rotateSign unrotate
  by_cases hneg : v < 0
  · rw [if_pos hneg]
    refine ⟨by omega, ?_⟩
    rw [if_pos (by omega)]
    omega
  · rw [if_neg hneg]
    refine ⟨by omega, ?_⟩
    rw [if_neg (by omega)]
    omega

/-- A signed integer is written in the first of the three forms that has its range. -/
theorem encodeSigned_ok {v : Int} (h : encodeSigned v = .ok bs) :
    (fitsSigned 6 v = true ∧ bs = [UInt8.ofNat (rotateSign 6 v)])
      ∨ (¬ fitsSigned 6 v = true ∧ fitsSigned 13 v = true
        ∧ bs = [UInt8.ofNat (0x80 + rotateSign 13 v / 256), UInt8.ofNat (rotateSign 13 v)])
      ∨ (¬ fitsSigned 6 v = true ∧ ¬ fitsSigned 13 v = true ∧ fitsSigned 28 v = true
        ∧ bs = [UInt8.ofNat (0xC0 + rotateSign 28 v / 0x1000000),
          UInt8.ofNat (rotateSign 28 v / 0x10000), UInt8.ofNat (rotateSign 28 v / 256),
          UInt8.ofNat (rotateSign 28 v)]) := by
  unfold encodeSigned at h
  by_cases h6 : fitsSigned 6 v = true
  · rw [if_pos h6] at h
    exact Or.inl ⟨h6, (Except.ok.inj h).symm⟩
  rw [if_neg h6] at h
  by_cases h13 : fitsSigned 13 v = true
  · rw [if_pos h13] at h
    exact Or.inr (Or.inl ⟨h6, h13, (Except.ok.inj h).symm⟩)
  rw [if_neg h13] at h
  by_cases h28 : fitsSigned 28 v = true
  · rw [if_pos h28] at h
    exact Or.inr (Or.inr ⟨h6, h13, h28, (Except.ok.inj h).symm⟩)
  · rw [if_neg h28] at h
    cases h

/-- A signed integer is written in the form that its range asks for, and scanned from there with
its sign in the lowest bit. -/
theorem scan_encodeSigned {v : Int} (h : encodeSigned v = .ok bs) :
    fitsSigned (signedBits bs.length) v = true
      ∧ ∀ s, scan (bs ++ s) = .value (rotateSign (signedBits bs.length) v) bs.length := by
  -- The form is chosen for the signed number; its rotation has room in it.
  rcases encodeSigned_ok h with ⟨h6, rfl⟩ | ⟨-, h13, rfl⟩ | ⟨-, -, h28, rfl⟩
  · have hlt : rotateSign 6 v < 0x80 := (unrotate_rotateSign h6).1
    exact ⟨h6, fun s => scan_oneByte hlt s⟩
  · have hlt : rotateSign 13 v < 0x4000 := (unrotate_rotateSign h13).1
    exact ⟨h13, fun s => scan_twoBytes hlt s⟩
  · have hlt : rotateSign 28 v < 0x20000000 := (unrotate_rotateSign h28).1
    have hlead : (UInt8.ofNat (0xC0 + rotateSign 28 v / 0x1000000)).toNat
        = 0xC0 + rotateSign 28 v / 0x1000000 := by
      rw [UInt8.toNat_ofNat']
      omega
    exact ⟨h28, fun s => scan_fourBytes hlead hlt s⟩

/-- **A signed integer is read back.** -/
theorem decodeSigned_encodeSigned {v : Int} (h : encodeSigned v = .ok bs) (s : List UInt8) :
    decodeSigned (bs ++ s) = .ok (v, bs.length) := by
  obtain ⟨hfits, hscan⟩ := scan_encodeSigned h
  rw [decodeSigned_of_scan (hscan s), (unrotate_rotateSign hfits).2]

theorem encodeSigned_ne_nil {v : Int} (h : encodeSigned v = .ok bs) : bs ≠ [] := by
  rintro rfl
  have hread := decodeSigned_encodeSigned h []
  cases hread

theorem scan_of_decodeSigned {v : Int} (h : decodeSigned bs = .ok (v, used)) :
    ∃ u, scan bs = .value u used ∧ v = unrotate (signedBits used) u := by
  simp only [decodeSigned] at h
  cases hdecode : decode bs with
  | error f =>
    rw [hdecode] at h
    cases h
  | ok r =>
    obtain ⟨u?, m⟩ := r
    rw [hdecode] at h
    cases u? with
    | none => cases h
    | some u =>
      -- Signed reading is scanning and undoing the rotation, so both have used the same form.
      have hscan := scan_of_decode hdecode
      have hsigned := decodeSigned_of_scan hscan
      have hboth := hsigned.symm.trans ((by simp only [decodeSigned, hdecode]; exact h) :
        decodeSigned bs = .ok (v, used))
      obtain ⟨hv, rfl⟩ := Prod.mk.inj (Except.ok.inj hboth)
      exact ⟨u, hscan, hv.symm⟩

theorem decodeSigned_take {v : Int} (h : decodeSigned bs = .ok (v, used)) :
    0 < used ∧ used ≤ bs.length ∧ ∀ s, decodeSigned (bs.take used ++ s) = .ok (v, used) := by
  obtain ⟨u, hscan, rfl⟩ := scan_of_decodeSigned h
  obtain ⟨hpos, hle, htake⟩ := scan_take hscan
  exact ⟨hpos, hle, fun s => decodeSigned_of_scan (htake s)⟩

end ManagedImage.Compressed
