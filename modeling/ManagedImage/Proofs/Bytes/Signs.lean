/-
Words back to bytes, and signed words.

The other direction of `leNat_leBytes`: a run of bytes is the word it reads as. A signed
number is written in two's complement, once for all widths (`twosComplement`), as the low
bytes of one number do not depend on how many are kept. `signedWord` undoes it for every
number that fits the width. Bits are counted in naturals and signs in integers, and
`twosComplement_mod` is where the two meet.
-/
import ManagedImage.Proofs.Bytes.Compressed
import ManagedImage.Bytes.Word

set_option autoImplicit false

namespace ManagedImage

open Compressed (fitsSigned fitsSigned_iff)

/-! ## Words -/

/-- A byte has eight bits. -/
theorem pow_256_eq (n : Nat) : 256 ^ n = 2 ^ (8 * n) := by
  rw [Nat.pow_mul]

theorem leNat_lt (bs : List UInt8) : leNat bs < 256 ^ bs.length := by
  induction bs with
  | nil => exact Nat.one_pos
  | cons b rest ih =>
    have hb : b.toNat < 256 := b.toNat_lt
    rw [leNat, List.length_cons, Nat.pow_succ]
    omega

theorem leNat_take_lt (bs : List UInt8) : leNat (bs.take 4) < 0x100000000 := by
  have hlen : (bs.take 4).length ≤ 4 := List.length_take_le 4 bs
  have hpow : 256 ^ (bs.take 4).length ≤ 256 ^ 4 :=
    Nat.pow_le_pow_right (show 0 < 256 by decide) hlen
  exact Nat.lt_of_lt_of_le (leNat_lt _) hpow

theorem leBytes_leNat (bs : List UInt8) : leBytes bs.length (leNat bs) = bs := by
  induction bs with
  | nil => rfl
  | cons b rest ih =>
    have hb : b.toNat < 256 := b.toNat_lt
    have hlow : (b.toNat + 256 * leNat rest) % 256 = b.toNat := by omega
    have hhigh : (b.toNat + 256 * leNat rest) / 256 = leNat rest := by omega
    rw [List.length_cons, leBytes, leNat, hlow, hhigh, ih, UInt8.ofNat_toNat]

theorem leBytes_mod (width n : Nat) : leBytes width (n % 256 ^ width) = leBytes width n := by
  have h := leBytes_leNat (leBytes width n)
  rwa [length_leBytes, leNat_leBytes] at h

/-! ## Signs -/

/-- The number modulo `2 ^ 64`. Its low bytes are the two's complement in every narrower width. -/
def twosComplement (v : Int) : Nat := (v % 0x10000000000000000).toNat

section Signs

variable {bits n : Nat} {v : Int}

/-- The low bits of the two's complement are the number modulo their count. -/
theorem twosComplement_mod (hbits : bits ≤ 64) :
    ((twosComplement v % 2 ^ bits : Nat) : Int) = v % (2 ^ bits : Nat) := by
  have hdvd : ((2 ^ bits : Nat) : Int) ∣ 0x10000000000000000 := by
    have h : 2 ^ bits ∣ 2 ^ 64 := Nat.pow_dvd_pow 2 hbits
    exact Int.natCast_dvd_natCast.mpr h
  have hnonneg : 0 ≤ v % 0x10000000000000000 := Int.emod_nonneg v (by decide)
  rw [twosComplement, Int.natCast_emod, Int.toNat_of_nonneg hnonneg]
  exact Int.emod_emod_of_dvd v hdvd

theorem signedWord_twosComplement (hpos : 0 < bits) (hbits : bits ≤ 64)
    (h : fitsSigned (bits - 1) v = true) :
    signedWord bits (twosComplement v % 2 ^ bits) = v := by
  obtain ⟨hlo, hhi⟩ := fitsSigned_iff.mp h
  have hsplit := Nat.two_pow_pred_mul_two hpos
  have hmod := twosComplement_mod (v := v) hbits
  unfold signedWord
  -- A negative number is written one whole turn higher.
  by_cases hneg : v < 0
  · have hturn : v % (2 ^ bits : Nat) = v + (2 ^ bits : Nat) := by
      rw [← Int.add_emod_right]
      exact Int.emod_eq_of_lt (by omega) (by omega)
    rw [hturn] at hmod
    rw [if_neg (by omega), hmod]
    omega
  · have hsame : v % (2 ^ bits : Nat) = v := Int.emod_eq_of_lt (by omega) (by omega)
    rw [hsame] at hmod
    rw [if_pos (by omega), hmod]

theorem fitsSigned_signedWord (hpos : 0 < bits) (h : n < 2 ^ bits) :
    fitsSigned (bits - 1) (signedWord bits n) = true := by
  have hsplit := Nat.two_pow_pred_mul_two hpos
  rw [fitsSigned_iff, signedWord]
  split <;> constructor <;> omega

theorem twosComplement_signedWord (hbits : bits ≤ 64) (h : n < 2 ^ bits) :
    twosComplement (signedWord bits n) % 2 ^ bits = n := by
  have hmod := twosComplement_mod (v := signedWord bits n) hbits
  have hn : signedWord bits n % (2 ^ bits : Nat) = n := by
    unfold signedWord
    split
    · exact Int.emod_eq_of_lt (by omega) (by omega)
    · rw [Int.sub_emod_right]
      exact Int.emod_eq_of_lt (by omega) (by omega)
  omega

end Signs

end ManagedImage
