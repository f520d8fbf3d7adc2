import Mathlib.Data.Nat.Bitwise
import Mathlib.Tactic.Common

/-!
Numbers in base 128.

A number is written with its low digit first, seven bits in a byte; the high bit of a byte says
that another one follows. The first argument of `varintDigits` bounds the number of digits; ten
are enough for 64 bits.
-/

namespace RoombaBrain.Varint

def varintDigits : ℕ → ℕ → List UInt8
  | 0, _ => []
  | k + 1, n =>
    if n < 128 then [n.toUInt8] else (n % 128 + 128).toUInt8 :: varintDigits k (n / 128)

def varint (n : ℕ) : List UInt8 := varintDigits 10 n

lemma varintDigits_of_lt {n : ℕ} (k : ℕ) (h : n < 128) :
    varintDigits (k + 1) n = [n.toUInt8] := by
  rw [varintDigits, if_pos h]

lemma varintDigits_of_ge {n : ℕ} (k : ℕ) (h : 128 ≤ n) :
    varintDigits (k + 1) n = (n % 128 + 128).toUInt8 :: varintDigits k (n / 128) := by
  rw [varintDigits, if_neg (Nat.not_lt.mpr h)]

lemma varint_of_lt {n : ℕ} (h : n < 128) : varint n = [n.toUInt8] := varintDigits_of_lt 9 h

lemma toNat_digit (n : ℕ) : (n % 128 + 128).toUInt8.toNat = n % 128 + 128 := by
  simp only [Nat.toUInt8, UInt8.toNat_ofNat']
  omega

lemma toNat_lastDigit {n : ℕ} (h : n < 128) : n.toUInt8.toNat = n := by
  simp only [Nat.toUInt8, UInt8.toNat_ofNat']
  omega

/-- Only zero is written with a zero byte. -/
lemma zero_notMem_varintDigits (k : ℕ) {n : ℕ} (hn : n ≠ 0) : (0 : UInt8) ∉ varintDigits k n := by
  induction k generalizing n with
  | zero => simp [varintDigits]
  | succ k ih =>
    by_cases h : n < 128
    · rw [varintDigits_of_lt k h, List.mem_singleton]
      intro h0
      have := congrArg UInt8.toNat h0
      rw [toNat_lastDigit h] at this
      exact hn this.symm
    · rw [varintDigits_of_ge k (by omega), List.mem_cons, not_or]
      refine ⟨fun h0 => ?_, ih (by omega)⟩
      have := congrArg UInt8.toNat h0
      rw [toNat_digit] at this
      simp at this

lemma zero_notMem_varint {n : ℕ} (hn : n ≠ 0) : (0 : UInt8) ∉ varint n :=
  zero_notMem_varintDigits 10 hn

lemma varint_ne_nil (n : ℕ) : varint n ≠ [] := by
  rw [varint, varintDigits]
  split <;> simp

lemma varintDigits_length_le (k : ℕ) {j n : ℕ} (h : n < 128 ^ j) (hj : 0 < j) :
    (varintDigits k n).length ≤ j := by
  induction k generalizing j n with
  | zero => simp [varintDigits]
  | succ k ih =>
    obtain ⟨j, rfl⟩ := Nat.exists_eq_succ_of_ne_zero (Nat.ne_of_gt hj)
    by_cases hn : n < 128
    · rw [varintDigits_of_lt k hn]
      simp
    · have hdiv : n / 128 < 128 ^ j := by
        rw [Nat.pow_succ] at h
        omega
      have hj : 0 < j := by
        rcases Nat.eq_zero_or_pos j with rfl | hj
        · simp at hdiv
          omega
        · exact hj
      have := ih hdiv hj
      rw [varintDigits_of_ge k (by omega), List.length_cons]
      omega

lemma length_varintDigits_le (k n : ℕ) : (varintDigits k n).length ≤ k := by
  induction k generalizing n with
  | zero => exact Nat.le_refl _
  | succ k ih =>
    rw [varintDigits]
    split
    · simp
    · exact Nat.succ_le_succ (ih _)

/-! ### Digits in machine words -/

lemma toNat_lowBits (b : UInt8) : (b &&& 0x7F).toNat = b.toNat % 128 := by
  rw [UInt8.toNat_and]
  exact Nat.and_two_pow_sub_one_eq_mod b.toNat 7

lemma highBit_eq_zero (b : UInt8) : b &&& 0x80 = 0 ↔ b.toNat < 128 := by
  have hb := b.toNat_lt
  rw [← UInt8.toNat_inj, UInt8.toNat_and]
  show b.toNat &&& 2 ^ 7 = 0 ↔ _
  rw [Nat.and_two_pow, Nat.testBit_eq_decide_div_mod_eq]
  rcases Nat.lt_or_ge b.toNat 128 with h | h
  · simp [h, Nat.div_eq_of_lt h]
  · have : b.toNat / 2 ^ 7 = 1 := by omega
    simp only [this, Nat.not_lt.mpr h]
    decide

/-- A digit entered above the bits already there is added to them. -/
lemma or_shift_eq_add {r d i : ℕ} (hr : r < 2 ^ i) : r ||| d <<< i = r + d * 2 ^ i := by
  calc r ||| d <<< i = 2 ^ i * d ||| r := by rw [Nat.shiftLeft_eq, Nat.or_comm, Nat.mul_comm]
    _ = 2 ^ i * d + r := (Nat.two_pow_add_eq_or_of_lt hr d).symm
    _ = r + d * 2 ^ i := by rw [Nat.add_comm, Nat.mul_comm]

end RoombaBrain.Varint
