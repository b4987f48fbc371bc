/-
Text that is valid comes back from its encodings.

The bytes of a string are read as its characters, one rune each: the four cases of
the encoder meet the four ranges of lead bytes, and the bounds on the second byte are what
a character that is no surrogate and not past the last one gives. Sixteen-bit units are
read back in the same way, a character outside the 16-bit range through its pair.
-/
import ManagedImage.Proofs.Bytes.Holding
import ManagedImage.Text.Units

set_option autoImplicit false

namespace ManagedImage

/-- The numbers of characters: below the surrogates, or behind them up to the last one. -/
theorem toNat_char_cases (c : Char) :
    c.toNat < 0xD800 ∨ (0xDFFF < c.toNat ∧ c.toNat < 0x110000) := c.valid

/-! ## Bytes -/

namespace Rune

section Leads

variable {b c d e : UInt8} {rest : List UInt8}

theorem decode_one (hb : b.toNat < 0x80) :
    decode (b :: rest) = .char (Char.ofNat b.toNat) :: decode rest := by
  have hlt : b < 0x80 := UInt8.lt_iff_toNat_lt.mpr hb
  rw [decode.eq_def]
  simp only [if_pos hlt]

theorem not_lt_of_le {a b : UInt8} (h : b.toNat ≤ a.toNat) : ¬ a < b := by
  rw [UInt8.lt_iff_toNat_lt]
  omega

theorem isContinuation_of_le (hlo : 0x80 ≤ c.toNat) (hhi : c.toNat < 0xC0) :
    isContinuation c = true := by
  rw [isContinuation, Bool.and_eq_true, decide_eq_true_eq, decide_eq_true_eq,
    UInt8.le_iff_toNat_le, UInt8.le_iff_toNat_le]
  exact ⟨hlo, Nat.le_of_lt_succ hhi⟩

theorem decode_two (hlo : 0xC2 ≤ b.toNat) (hhi : b.toNat < 0xE0) (hc : isContinuation c = true) :
    decode (b :: c :: rest)
      = .char (Char.ofNat (b.toNat % 32 * 64 + payload c)) :: decode rest := by
  have h80 : ¬ b < 0x80 := not_lt_of_le (Nat.le_trans (by decide) hlo)
  have hC2 : ¬ b < 0xC2 := not_lt_of_le hlo
  have hE0 : b < 0xE0 := UInt8.lt_iff_toNat_lt.mpr hhi
  rw [decode.eq_def]
  simp only [if_neg h80, if_neg hC2, if_pos hE0, hc, if_true]

theorem decode_three (hlo : 0xE0 ≤ b.toNat) (hhi : b.toNat < 0xF0)
    (hsecond : secondLow b ≤ c ∧ c ≤ secondHigh b) (hd : isContinuation d = true) :
    decode (b :: c :: d :: rest)
      = .char (Char.ofNat ((b.toNat % 16 * 64 + payload c) * 64 + payload d)) :: decode rest := by
  have h80 : ¬ b < 0x80 := not_lt_of_le (Nat.le_trans (by decide) hlo)
  have hC2 : ¬ b < 0xC2 := not_lt_of_le (Nat.le_trans (by decide) hlo)
  have hE0 : ¬ b < 0xE0 := not_lt_of_le hlo
  have hF0 : b < 0xF0 := UInt8.lt_iff_toNat_lt.mpr hhi
  have hgo : (secondLow b ≤ c && c ≤ secondHigh b && isContinuation d) = true := by
    rw [hd, Bool.and_true, Bool.and_eq_true, decide_eq_true_eq, decide_eq_true_eq]
    exact hsecond
  rw [decode.eq_def]
  simp only [if_neg h80, if_neg hC2, if_neg hE0, if_pos hF0, hgo, if_true]

theorem decode_four (hlo : 0xF0 ≤ b.toNat) (hhi : b.toNat < 0xF5)
    (hsecond : secondLow b ≤ c ∧ c ≤ secondHigh b) (hd : isContinuation d = true)
    (he : isContinuation e = true) :
    decode (b :: c :: d :: e :: rest)
      = .char (Char.ofNat (((b.toNat % 8 * 64 + payload c) * 64 + payload d) * 64 + payload e))
          :: decode rest := by
  have h80 : ¬ b < 0x80 := not_lt_of_le (Nat.le_trans (by decide) hlo)
  have hC2 : ¬ b < 0xC2 := not_lt_of_le (Nat.le_trans (by decide) hlo)
  have hE0 : ¬ b < 0xE0 := not_lt_of_le (Nat.le_trans (by decide) hlo)
  have hF0 : ¬ b < 0xF0 := not_lt_of_le hlo
  have hF5 : b < 0xF5 := UInt8.lt_iff_toNat_lt.mpr hhi
  have hgo : (secondLow b ≤ c && c ≤ secondHigh b && isContinuation d && isContinuation e)
      = true := by
    rw [hd, he, Bool.and_true, Bool.and_true, Bool.and_eq_true, decide_eq_true_eq,
      decide_eq_true_eq]
    exact hsecond
  rw [decode.eq_def]
  simp only [if_neg h80, if_neg hC2, if_neg hE0, if_neg hF0, if_pos hF5, hgo, if_true]

/-- The bounds on a second byte, by the lead byte. -/
theorem second_of_toNat {lead x : Nat} (hb : b.toNat = lead) (hc : c.toNat = x)
    (hlo : 0x80 ≤ x) (hhi : x < 0xC0) (hE0 : lead = 0xE0 → 0xA0 ≤ x)
    (hED : lead = 0xED → x < 0xA0) (hF0 : lead = 0xF0 → 0x90 ≤ x) (hF4 : lead = 0xF4 → x < 0x90) :
    secondLow b ≤ c ∧ c ≤ secondHigh b := by
  have heq : ∀ k : UInt8, b = k ↔ lead = k.toNat := by
    intro k
    rw [← hb]
    exact UInt8.toNat_inj.symm
  rw [secondLow, secondHigh, UInt8.le_iff_toNat_le, UInt8.le_iff_toNat_le, hc]
  simp only [heq]
  refine ⟨?_, ?_⟩
  · split
    · exact hE0 ‹_›
    · split
      · exact hF0 ‹_›
      · exact hlo
  · split
    · exact Nat.le_of_lt_succ (hED ‹_›)
    · split
      · exact Nat.le_of_lt_succ (hF4 ‹_›)
      · exact Nat.le_of_lt_succ hhi

end Leads

/-- **A character is read back from its bytes.** -/
theorem decode_utf8EncodeChar (c : Char) (rest : List UInt8) :
    decode (String.utf8EncodeChar c ++ rest) = .char c :: decode rest := by
  have hchar := toNat_char_cases c
  have hval : c.val.toNat = c.toNat := rfl
  have hback : ∀ n, n = c.toNat → Char.ofNat n = c := fun n hn => by rw [hn, Char.ofNat_toNat]
  have hbyte : ∀ n, n < 256 → (UInt8.ofNat n).toNat = n := by
    intro n hn
    rw [UInt8.toNat_ofNat']
    exact Nat.mod_eq_of_lt hn
  have htail : ∀ n, isContinuation (UInt8.ofNat (n % 0x40 + 0x80)) = true := by
    intro n
    apply isContinuation_of_le <;> rw [hbyte _ (by omega)] <;> omega
  -- By the number of bytes. The leading byte tells it, and a second byte that its leading byte
  -- restricts is in range, since no character is a surrogate or spelled longer than it has to be.
  simp only [String.utf8EncodeChar, hval]
  by_cases h1 : c.toNat ≤ 0x7F
  · rw [if_pos h1, List.singleton_append, decode_one (by rw [hbyte _ (by omega)]; omega),
      hback _ (hbyte _ (by omega))]
  rw [if_neg h1]
  by_cases h2 : c.toNat ≤ 0x7FF
  · have hlead : (UInt8.ofNat (c.toNat / 64 % 0x20 + 0xC0)).toNat = c.toNat / 64 + 0xC0 := by
      rw [hbyte _ (by omega)]
      omega
    rw [if_pos h2, List.cons_append, List.singleton_append,
      decode_two (by omega) (by omega) (htail _), hlead, payload, hbyte _ (by omega),
      hback _ (by omega)]
  rw [if_neg h2]
  by_cases h3 : c.toNat ≤ 0xFFFF
  · have hlead : (UInt8.ofNat (c.toNat / 4096 % 0x10 + 0xE0)).toNat = c.toNat / 4096 + 0xE0 := by
      rw [hbyte _ (by omega)]
      omega
    have hsecond := second_of_toNat hlead (hbyte (c.toNat / 64 % 0x40 + 0x80) (by omega))
      (by omega) (by omega) (by omega) (by omega) (by omega) (by omega)
    rw [if_pos h3]
    simp only [List.cons_append, List.nil_append]
    rw [decode_three (by omega) (by omega) hsecond (htail _), hlead, payload, payload,
      hbyte _ (by omega), hbyte _ (by omega), hback _ (by omega)]
  · have hlead : (UInt8.ofNat (c.toNat / 262144 % 0x08 + 0xF0)).toNat
        = c.toNat / 262144 + 0xF0 := by
      rw [hbyte _ (by omega)]
      omega
    have hsecond := second_of_toNat hlead (hbyte (c.toNat / 4096 % 0x40 + 0x80) (by omega))
      (by omega) (by omega) (by omega) (by omega) (by omega) (by omega)
    rw [if_neg h3]
    simp only [List.cons_append, List.nil_append]
    rw [decode_four (by omega) (by omega) hsecond (htail _) (htail _), hlead, payload, payload,
      payload, hbyte _ (by omega), hbyte _ (by omega), hbyte _ (by omega), hback _ (by omega)]

end Rune

/-- The bytes of a string, character by character. -/
theorem toUTF8_toList (s : String) :
    s.toUTF8.data.toList = s.toList.flatMap String.utf8EncodeChar := by
  rw [String.toUTF8_eq_toByteArray, ← String.utf8Encode_toList, List.utf8Encode,
    List.toList_data_toByteArray]

/-- **A string is read as its characters.** -/
theorem Text.runes_ofString (s : String) : (Text.ofString s).runes = s.toList.map .char := by
  have hall : ∀ cs : List Char,
      Rune.decode (cs.flatMap String.utf8EncodeChar) = cs.map .char := by
    intro cs
    induction cs with
    | nil => rw [List.flatMap_nil, Rune.decode.eq_def]; rfl
    | cons c cs ih => rw [List.flatMap_cons, Rune.decode_utf8EncodeChar, ih, List.map_cons]
  show Rune.decode s.toUTF8.data.toList = _
  rw [toUTF8_toList, hall]

theorem Text.chars_ofString (s : String) :
    (Text.ofString s).runes.map Rune.toChar = s.toList := by
  rw [Text.runes_ofString, List.map_map]
  exact List.map_id _

theorem Text.ofChars_toList (s : String) : Text.ofChars s.toList = Text.ofString s := by
  rw [Text.ofChars, String.ofList_toList]

/-! ## Units -/

namespace Units

theorem encodeChar_lt (c : Char) : ∀ u ∈ encodeChar c, u < 0x10000 := by
  have hchar := toNat_char_cases c
  intro u hu
  rw [encodeChar] at hu
  split at hu
  · rw [List.mem_singleton] at hu
    omega
  · simp only [List.mem_cons, List.not_mem_nil, or_false] at hu
    omega

theorem encode_lt (cs : List Char) : ∀ u ∈ encode cs, u < 0x10000 := by
  intro u hu
  obtain ⟨c, -, hc⟩ := List.mem_flatMap.mp hu
  exact encodeChar_lt c u hc

theorem decode_encodeChar (c : Char) (rest : List Nat) :
    decode (encodeChar c ++ rest) = c :: decode rest := by
  have hchar := toNat_char_cases c
  rw [encodeChar]
  by_cases h : c.toNat < 0x10000
  · have hplain : isSurrogate c.toNat = false := by
      rw [isSurrogate, Bool.and_eq_false_iff, decide_eq_false_iff_not, decide_eq_false_iff_not]
      omega
    rw [if_pos h]
    cases rest with
    | nil => simp only [List.append_nil, decode, hplain, Bool.false_eq_true, if_false,
        Char.ofNat_toNat]
    | cons v rest => simp only [List.cons_append, List.nil_append, decode, hplain,
        Bool.false_eq_true, if_false, Char.ofNat_toNat]
  · -- The pair: its halves lie in their ranges and combine to the character.
    have hlead : isSurrogate (0xD800 + (c.toNat - 0x10000) / 0x400) = true := by
      rw [isSurrogate, Bool.and_eq_true, decide_eq_true_eq, decide_eq_true_eq]
      omega
    have htrail : isTrail (0xDC00 + (c.toNat - 0x10000) % 0x400) = true := by
      rw [isTrail, Bool.and_eq_true, decide_eq_true_eq, decide_eq_true_eq]
      omega
    have hpair : combine (0xD800 + (c.toNat - 0x10000) / 0x400)
        (0xDC00 + (c.toNat - 0x10000) % 0x400) = c := by
      have hsum : 0x10000 + (0xD800 + (c.toNat - 0x10000) / 0x400 - 0xD800) * 0x400
          + (0xDC00 + (c.toNat - 0x10000) % 0x400 - 0xDC00) = c.toNat := by omega
      rw [combine, if_pos (by omega), hsum, Char.ofNat_toNat]
    rw [if_neg h]
    simp only [List.cons_append, List.nil_append, decode, hlead, htrail, if_true, hpair]

/-- **Characters are read back from their units.** -/
theorem decode_encode (cs : List Char) : decode (encode cs) = cs := by
  induction cs with
  | nil => rfl
  | cons c cs ih =>
    have hcons : encode (c :: cs) = encodeChar c ++ encode cs := List.flatMap_cons
    rw [hcons, decode_encodeChar, ih]

@[simp] theorem length_toBytes (us : List Nat) : (toBytes us).length = 2 * us.length := by
  simp [toBytes, Nat.mul_comm]

/-- Units are read back from their bytes; a flag byte behind them is dropped. -/
theorem ofBytes_toBytes (flag : UInt8) : ∀ us : List Nat, (∀ u ∈ us, u < 0x10000) →
    ofBytes (toBytes us ++ [flag]) = us
  | [], _ => rfl
  | u :: us, h => by
    have hu := h u List.mem_cons_self
    have hbyte : (UInt8.ofNat (u % 256)).toNat + 256 * (UInt8.ofNat (u / 256)).toNat = u := by
      rw [UInt8.toNat_ofNat', UInt8.toNat_ofNat']
      omega
    have ih := ofBytes_toBytes flag us fun v hv => h v (List.mem_cons_of_mem u hv)
    have hcons : toBytes (u :: us)
        = UInt8.ofNat (u % 256) :: UInt8.ofNat (u / 256) :: toBytes us := rfl
    rw [hcons, List.cons_append, List.cons_append, ofBytes, ih, hbyte]

end Units

end ManagedImage
