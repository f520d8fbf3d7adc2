import RoombaBrain.PbVarint

/-!
The readers of varints compared.

Three functions of nanopb step over a varint: one to 64 bits, one to 32 bits for keys and lengths,
and one that skips it. They take the same bytes, up to their limits, and the narrow one finds the
low bits of the wide one.
-/

namespace RoombaBrain.PbVarint32

open RoombaBrain.ByteReader RoombaBrain.PbStream RoombaBrain.PbLocal RoombaBrain.Varint
  RoombaBrain.PbVarint

def value : List UInt8 → ℕ
  | [] => 0
  | b :: c => b.toNat % 128 + 128 * value c

/-- Every byte but the last one says that another one follows. -/
def Terminated : List UInt8 → Prop
  | [] => False
  | b :: c => if b &&& 0x80 = 0 then c = [] else Terminated c

lemma terminated_last {b : UInt8} (hb : b &&& 0x80 = 0) : Terminated [b] := by
  unfold Terminated
  rw [if_pos hb]

lemma terminated_more {b : UInt8} {c : List UInt8} (hb : ¬ b &&& 0x80 = 0) :
    Terminated (b :: c) ↔ Terminated c := by
  rw [Terminated, if_neg hb]

lemma terminated_ne_nil {c : List UInt8} (h : Terminated c) : c ≠ [] := by
  rintro rfl
  exact h

/-! ### Readers byte by byte -/

variable {α : Type} {f g : Reader α} {b : UInt8} {c : List UInt8} {a : α}

lemma reads_cons_iff (h : ∀ w m, f (on (b :: w) m) = g (on w m)) :
    Reads f (b :: c) a ↔ Reads g c a := by
  constructor
  · intro hf r m
    rw [← h, ← List.cons_append, hf r m]
  · exact fun hg => hg.cons h

lemma reads_pure_iff {a' : α} : Reads (pure a : Reader α) c a' ↔ c = [] ∧ a' = a := by
  constructor
  · intro h
    obtain ⟨ha, hc, -⟩ := h.unique (Reads.pure a) (r := []) (s := c) (by simp)
    exact ⟨hc, ha⟩
  · rintro ⟨rfl, rfl⟩
    exact Reads.pure _

lemma not_reads_fail {e : String} : ¬ Reads (fail e : Reader α) c a := fun h => by
  cases h [] []

/-! ### A digit in a machine word -/

/-- A digit enters a word above the bits that are there, as far as the word goes. -/
lemma or_shift_mod {r d i w : ℕ} (hr : r < 2 ^ i) :
    r % 2 ^ w ||| (d * 2 ^ i) % 2 ^ w = (r + d * 2 ^ i) % 2 ^ w := by
  rw [← or_shift_eq_add hr, Nat.or_mod_two_pow, Nat.shiftLeft_eq]

lemma enterDigit64 {b : UInt8} {bitpos r : ℕ} (hpos : bitpos < 64) (hr : r < 2 ^ bitpos) :
    r.toUInt64 ||| ((b &&& 0x7F).toUInt64 <<< bitpos.toUInt64) =
      (r + b.toNat % 128 * 2 ^ bitpos).toUInt64 := by
  have hposmod : bitpos.toUInt64.toNat % 64 = bitpos := by
    simp only [Nat.toUInt64, UInt64.toNat_ofNat']
    omega
  rw [← UInt64.toNat_inj, UInt64.toNat_or, UInt64.toNat_shiftLeft, hposmod,
    UInt8.toNat_toUInt64, toNat_lowBits, Nat.shiftLeft_eq]
  simp only [Nat.toUInt64, UInt64.toNat_ofNat']
  exact or_shift_mod hr

lemma enterDigit32 {b : UInt8} {bitpos r : ℕ} (hpos : bitpos < 32) (hr : r < 2 ^ bitpos) :
    r.toUInt32 ||| ((b &&& 0x7F).toUInt32 <<< bitpos.toUInt32) =
      (r + b.toNat % 128 * 2 ^ bitpos).toUInt32 := by
  have hposmod : bitpos.toUInt32.toNat % 32 = bitpos := by
    simp only [Nat.toUInt32, UInt32.toNat_ofNat']
    omega
  rw [← UInt32.toNat_inj, UInt32.toNat_or, UInt32.toNat_shiftLeft, hposmod,
    UInt8.toNat_toUInt32, toNat_lowBits, Nat.shiftLeft_eq]
  simp only [Nat.toUInt32, UInt32.toNat_ofNat']
  exact or_shift_mod hr

lemma digit_lt {r bitpos : ℕ} (hr : r < 2 ^ bitpos) (b : UInt8) :
    r + b.toNat % 128 * 2 ^ bitpos < 2 ^ (bitpos + 7) := by
  have hdigit : b.toNat % 128 * 2 ^ bitpos ≤ 127 * 2 ^ bitpos :=
    Nat.mul_le_mul_right _ (by omega)
  rw [Nat.pow_add]
  omega

lemma value_shift (r bitpos : ℕ) (b : UInt8) (c : List UInt8) :
    r + b.toNat % 128 * 2 ^ bitpos + value c * 2 ^ (bitpos + 7) =
      r + value (b :: c) * 2 ^ bitpos := by
  rw [value, Nat.pow_add, Nat.add_mul, ← Nat.add_assoc, Nat.mul_comm 128 (value c),
    Nat.mul_assoc (value c), Nat.mul_comm 128]

/-! ### The bytes taken -/

/-- `pb_skip_varint` takes any varint. -/
lemma skipVarint_reads_iff (c : List UInt8) : Reads pbSkipVarint c () ↔ Terminated c := by
  induction c with
  | nil => exact iff_of_false (fun h => by cases h [] []) id
  | cons b c ih =>
    by_cases hb : b &&& 0x80 = 0
    · have hstep : ∀ w m, pbSkipVarint (on (b :: w) m) = (pure () : Reader Unit) (on w m) := by
        intro w m
        simp only [pbSkipVarint, skipVarintLoop, on_bytesLeft, List.length_cons, pbReadbyte_bind]
        rw [if_neg (not_not_intro hb)]
      rw [reads_cons_iff hstep, reads_pure_iff, Terminated, if_pos hb]
      exact and_iff_left rfl
    · have hstep : ∀ w m, pbSkipVarint (on (b :: w) m) = pbSkipVarint (on w m) := by
        intro w m
        simp only [pbSkipVarint, skipVarintLoop, on_bytesLeft, List.length_cons, pbReadbyte_bind]
        rw [if_pos hb]
      rw [reads_cons_iff hstep, ih, terminated_more hb]

lemma varintLoop_reads_iff (k bitpos r : ℕ) (hpos : bitpos + 7 * k ≤ 70)
    (hr : r < 2 ^ bitpos) {c : List UInt8} {v : UInt64} :
    Reads (varintLoop k bitpos r.toUInt64) c v ↔
      Terminated c ∧ c.length ≤ k ∧ v = (r + value c * 2 ^ bitpos).toUInt64 := by
  induction k generalizing bitpos r c with
  | zero =>
    apply iff_of_false not_reads_fail
    rintro ⟨hc, hlen, -⟩
    exact terminated_ne_nil hc (List.eq_nil_of_length_eq_zero (Nat.le_zero.mp hlen))
  | succ k ih =>
    have hlt : bitpos < 64 := by omega
    cases c with
    | nil =>
      refine iff_of_false (fun h => ?_) fun h => h.1
      have hnil := h [] []
      simp only [varintLoop, if_neg (Nat.not_le.mpr hlt)] at hnil
      cases hnil
    | cons b c =>
      have hdigit := enterDigit64 (b := b) hlt hr
      by_cases hb : b &&& 0x80 = 0
      · rw [reads_cons_iff (g := pure (r + b.toNat % 128 * 2 ^ bitpos).toUInt64) (fun w m => by
          rw [varintLoop_cons _ _ hlt, if_neg (not_not_intro hb), hdigit]), reads_pure_iff,
          Terminated, if_pos hb]
        constructor
        · rintro ⟨rfl, rfl⟩
          exact ⟨rfl, by simp, by simp [value]⟩
        · rintro ⟨rfl, -, rfl⟩
          exact ⟨rfl, by simp [value]⟩
      · rw [reads_cons_iff (g := varintLoop k (bitpos + 7)
          (r + b.toNat % 128 * 2 ^ bitpos).toUInt64) (fun w m => by
          rw [varintLoop_cons _ _ hlt, if_pos hb, hdigit]), ih _ _ (by omega) (digit_lt hr b),
          value_shift, terminated_more hb, List.length_cons, Nat.succ_le_succ_iff]

/-- `pb_decode_varint` takes the varints of up to ten bytes, for their value in 64 bits. -/
lemma varint_reads_iff {c : List UInt8} {v : UInt64} : Reads pbDecodeVarint c v ↔
    Terminated c ∧ c.length ≤ 10 ∧ v = (value c).toUInt64 := by
  have h := varintLoop_reads_iff 10 0 0 (by omega) (by omega) (c := c) (v := v)
  rwa [Nat.pow_zero, Nat.mul_one, Nat.zero_add] at h

/-! ### The narrow reader -/

def varint32More (bitpos : ℕ) (result : UInt32) : Reader UInt32 := fun s =>
  varint32Loop s.bytesLeft bitpos result s

lemma pbDecodeVarint32_on (w m : List UInt8) :
    pbDecodeVarint32 (on w m) = varint32More 0 0 (on w m) := by
  cases w with
  | nil => rfl
  | cons b w =>
    have hdigit : varint32Digit 0 0 b = .ok (b &&& 0x7F).toUInt32 := by
      have hor : (0 : UInt32) ||| ((b &&& 0x7F).toUInt32 <<< (0 : ℕ).toUInt32) =
          (b &&& 0x7F).toUInt32 := by
        simp
      unfold varint32Digit
      rw [if_neg (by omega), hor]
    rw [pbDecodeVarint32_cons, varint32Rest, varint32More]
    simp only [varint32Loop, on_bytesLeft, List.length_cons, pbReadbyte_bind, hdigit]
    by_cases hb : b &&& 0x80 = 0
    · have hlow : b &&& 0x7F = b := by
        rw [← UInt8.toNat_inj, toNat_lowBits]
        exact Nat.mod_eq_of_lt ((highBit_eq_zero b).mp hb)
      rw [if_pos hb, if_neg (not_not_intro hb), if_neg (by omega), hlow]
      rfl
    · rw [if_neg hb, if_pos hb]

def HighByte (v : UInt32) (i : ℕ) (b : UInt8) : Prop :=
  b &&& 0x7F = 0 ∨ (v >>> 31 ≠ 0 ∧ b = if i < 9 then 0xFF else 0x01)

/-- The bytes from the place `i` on say nothing more than `v` past 32 bits. -/
def Extends (v : UInt32) : ℕ → List UInt8 → Prop
  | _, [] => True
  | i, b :: c => (5 ≤ i → HighByte v i b) ∧ Extends v (i + 1) c

lemma digit_low {i r : ℕ} {b : UInt8} (hi : i < 5) (hr : r < 2 ^ (7 * i)) :
    varint32Digit (7 * i) r.toUInt32 b =
      .ok (r + b.toNat % 128 * 2 ^ (7 * i)).toUInt32 := by
  unfold varint32Digit
  rw [if_neg (by omega), enterDigit32 (by omega) hr]

lemma digit_high {i : ℕ} (hi : 5 ≤ i) (result : UInt32) (b : UInt8) :
    (HighByte result i b ∧ varint32Digit (7 * i) result b = .ok result) ∨
      (¬ HighByte result i b ∧ ∃ e, varint32Digit (7 * i) result b = .error e) := by
  have hsign : (if 7 * i < 63 then (0xFF : UInt8) else 0x01) = if i < 9 then 0xFF else 0x01 := by
    by_cases h : i < 9
    · rw [if_pos h, if_pos (by omega)]
    · rw [if_neg h, if_neg (by omega)]
  unfold varint32Digit
  rw [if_pos (by omega), hsign]
  by_cases hhigh : HighByte result i b
  · refine Or.inl ⟨hhigh, if_neg ?_⟩
    rintro ⟨hdigit, hbad⟩
    rcases hhigh with hzero | ⟨hneg, hb⟩
    · exact hdigit hzero
    · exact hbad.elim hneg fun hne => hne hb
  · refine Or.inr ⟨hhigh, _, if_pos ?_⟩
    refine ⟨fun hzero => hhigh (Or.inl hzero), ?_⟩
    by_contra hbad
    obtain ⟨hneg, hb⟩ := not_or.mp hbad
    exact hhigh (Or.inr ⟨hneg, not_not.mp hb⟩)

lemma word_high {i : ℕ} (hi : 5 ≤ i) (r n : ℕ) : (r + n * 2 ^ (7 * i)).toUInt32 = r.toUInt32 := by
  have hpow : 2 ^ (7 * i) = 2 ^ 32 * 2 ^ (7 * i - 32) := by
    rw [← Nat.pow_add]
    congr 1
    omega
  rw [← UInt32.toNat_inj]
  simp only [Nat.toUInt32, UInt32.toNat_ofNat']
  rw [hpow, Nat.mul_left_comm, Nat.add_mul_mod_self_left]

lemma fifth_bits {b : UInt8} (hb : b &&& 0x80 = 0) : b &&& 0x70 = 0 ↔ b.toNat % 128 < 16 := by
  have hmask : ∀ n < 128, n &&& 0x70 = 0 ↔ n < 16 := by decide
  have hlt := (highBit_eq_zero b).mp hb
  rw [← UInt8.toNat_inj, UInt8.toNat_and, Nat.mod_eq_of_lt hlt]
  exact hmask b.toNat hlt

lemma more_cons {bitpos : ℕ} {result result' : UInt32} {b : UInt8}
    (hd : varint32Digit bitpos result b = .ok result') (w m : List UInt8) :
    varint32More bitpos result (on (b :: w) m) =
      (if b &&& 0x80 ≠ 0 then varint32More (bitpos + 7) result'
        else if bitpos + 7 = 35 ∧ b &&& 0x70 ≠ 0 then fail "varint overflow"
        else pure result' : Reader UInt32) (on w m) := by
  rw [varint32More]
  simp only [varint32Loop, on_bytesLeft, List.length_cons, pbReadbyte_bind, hd]
  split
  · rfl
  · rfl

lemma more_reads_cons {i : ℕ} {result result' v : UInt32} {b : UInt8} {c : List UInt8}
    (hd : varint32Digit (7 * i) result b = .ok result') :
    Reads (varint32More (7 * i) result) (b :: c) v ↔
      if b &&& 0x80 = 0 then c = [] ∧ v = result' ∧ (i = 4 → b &&& 0x70 = 0)
      else Reads (varint32More (7 * (i + 1)) result') c v := by
  by_cases hb : b &&& 0x80 = 0
  · rw [if_pos hb]
    by_cases hlast : i = 4 ∧ b &&& 0x70 ≠ 0
    · have hstep := more_cons (b := b) hd
      simp only [if_neg (not_not_intro hb),
        if_pos (show 7 * i + 7 = 35 ∧ b &&& 0x70 ≠ 0 from ⟨by omega, hlast.2⟩)] at hstep
      rw [reads_cons_iff hstep]
      exact iff_of_false not_reads_fail fun h => hlast.2 (h.2.2 hlast.1)
    · have hstep := more_cons (b := b) hd
      simp only [if_neg (not_not_intro hb), if_neg (show ¬ (7 * i + 7 = 35 ∧ b &&& 0x70 ≠ 0) from
        fun h => hlast ⟨by omega, h.2⟩)] at hstep
      rw [reads_cons_iff hstep, reads_pure_iff]
      have hfifth : i = 4 → b &&& 0x70 = 0 := fun h => not_not.mp fun hne => hlast ⟨h, hne⟩
      exact and_congr_right fun _ => (and_iff_left hfifth).symm
  · have hstep := more_cons (b := b) hd
    simp only [if_pos hb] at hstep
    rw [if_neg hb, reads_cons_iff hstep]
    rfl

lemma more_reads_iff (c : List UInt8) {i r : ℕ} (hr : r < 2 ^ (7 * i)) {v : UInt32} :
    Reads (varint32More (7 * i) r.toUInt32) c v ↔
      Terminated c ∧ (i + c.length = 5 → r + value c * 2 ^ (7 * i) < 2 ^ 32) ∧ Extends v i c ∧
        v = (r + value c * 2 ^ (7 * i)).toUInt32 := by
  induction c generalizing i r with
  | nil => exact iff_of_false (fun h => by cases h [] []) fun h => h.1
  | cons b c ih =>
    have hpow : 7 * (i + 1) = 7 * i + 7 := by omega
    have hnext := digit_lt hr b
    rw [← hpow] at hnext
    have hshift := value_shift r (7 * i) b c
    rw [← hpow] at hshift
    rcases Nat.lt_or_ge i 5 with hi | hi
    · -- the digit enters the word
      rw [more_reads_cons (digit_low hi hr)]
      by_cases hb : b &&& 0x80 = 0
      · rw [if_pos hb, Terminated, if_pos hb]
        constructor
        · rintro ⟨rfl, rfl, hfifth⟩
          refine ⟨rfl, fun hlen => ?_, ⟨fun h => by omega, trivial⟩, by simp [value]⟩
          have hfour : i = 4 := by simpa using hlen
          subst hfour
          have hdigit := (fifth_bits hb).mp (hfifth rfl)
          simp only [value]
          omega
        · rintro ⟨rfl, hlen, -, rfl⟩
          refine ⟨rfl, by simp [value], fun hfour => ?_⟩
          subst hfour
          have hlt := hlen (by simp)
          simp only [value] at hlt
          rw [fifth_bits hb]
          omega
      · rw [if_neg hb, ih hnext, hshift, terminated_more hb, List.length_cons, Extends]
        have hplace : (5 ≤ i → HighByte v i b) := fun h => by omega
        rw [show i + (c.length + 1) = i + 1 + c.length by omega, and_iff_right hplace]
    · -- the digit has no place in the word
      have hword := word_high hi r
      rcases digit_high hi r.toUInt32 b with ⟨hhigh, hd⟩ | ⟨hhigh, e, hd⟩
      · rw [more_reads_cons hd, ← hword (b.toNat % 128)]
        by_cases hb : b &&& 0x80 = 0
        · rw [if_pos hb, Terminated, if_pos hb, hword, hword]
          constructor
          · rintro ⟨rfl, rfl, -⟩
            exact ⟨rfl, fun h => by simp at h; omega, ⟨fun _ => hhigh, trivial⟩, rfl⟩
          · rintro ⟨rfl, -, -, rfl⟩
            exact ⟨rfl, rfl, fun h => by omega⟩
        · rw [if_neg hb, ih hnext, hshift, terminated_more hb, List.length_cons, Extends]
          rw [show i + (c.length + 1) = i + 1 + c.length by omega]
          constructor
          · rintro ⟨hc, hlen, hext, hv⟩
            exact ⟨hc, hlen, ⟨fun _ => by rwa [hv, hword], hext⟩, hv⟩
          · rintro ⟨hc, hlen, ⟨-, hext⟩, hv⟩
            exact ⟨hc, hlen, hext, hv⟩
      · refine iff_of_false (fun h => ?_) ?_
        · have hnil := h [] []
          rw [varint32More] at hnil
          simp only [List.append_nil, varint32Loop, on_bytesLeft, List.length_cons,
            pbReadbyte_bind, hd] at hnil
          cases hnil
        · rintro ⟨-, -, ⟨hb, -⟩, hv⟩
          rw [hv, hword] at hb
          exact hhigh (hb hi)

/-- `pb_decode_varint32` takes the varints of a 32-bit number, and longer ones that only repeat
its sign. The bits that the fifth of more bytes has past the word are lost. -/
lemma varint32_reads_iff {c : List UInt8} {v : UInt32} : Reads pbDecodeVarint32 c v ↔
    Terminated c ∧ (c.length = 5 → value c < 2 ^ 32) ∧ Extends v 0 c ∧
      v = (value c).toUInt32 := by
  have h := more_reads_iff c (i := 0) (r := 0) (by omega) (v := v)
  simp only [Nat.mul_zero, Nat.pow_zero, Nat.mul_one, Nat.zero_add] at h
  rw [← h]
  constructor
  · intro hreads r m
    rw [← hreads r m, pbDecodeVarint32_on]
    rfl
  · intro hreads r m
    rw [pbDecodeVarint32_on]
    exact hreads r m

/-- **What the three readers take**: all of them whole varints only, and the narrow one the low
bits of what the wide one reads. -/
theorem varint_readers (c : List UInt8) :
    (Reads pbSkipVarint c () ↔ Terminated c) ∧
    (∀ u, Reads pbDecodeVarint c u ↔
      Terminated c ∧ c.length ≤ 10 ∧ u = (value c).toUInt64) ∧
    (∀ v, Reads pbDecodeVarint32 c v ↔
      Terminated c ∧ (c.length = 5 → value c < 2 ^ 32) ∧ Extends v 0 c ∧
        v = (value c).toUInt32) ∧
    ∀ u v, Reads pbDecodeVarint c u → Reads pbDecodeVarint32 c v → v = u.toUInt32 := by
  refine ⟨skipVarint_reads_iff c, fun u => varint_reads_iff, fun v => varint32_reads_iff,
    fun u v hu hv => ?_⟩
  obtain ⟨-, -, rfl⟩ := varint_reads_iff.mp hu
  obtain ⟨-, -, -, rfl⟩ := varint32_reads_iff.mp hv
  rw [← UInt32.toNat_inj, UInt64.toNat_toUInt32]
  simp only [Nat.toUInt64, Nat.toUInt32, UInt64.toNat_ofNat', UInt32.toNat_ofNat']
  omega

/-- Six bytes of a number of 35 bits are taken as a key or a length of 0. -/
example : Reads pbDecodeVarint32 [0x80, 0x80, 0x80, 0x80, 0xF0, 0x00] 0 :=
  varint32_reads_iff.mpr ⟨by simp [Terminated]; decide, by simp, by simp [Extends, HighByte], rfl⟩

/-! ### Shortest encodings -/

lemma varintDigits_spec (k : ℕ) {n : ℕ} (hn : n < 128 ^ k) (hk : 0 < k) :
    Terminated (varintDigits k n) ∧ value (varintDigits k n) = n := by
  induction k generalizing n with
  | zero => exact absurd hk (Nat.lt_irrefl 0)
  | succ k ih =>
    by_cases hlt : n < 128
    · rw [varintDigits_of_lt k hlt]
      refine ⟨terminated_last ?_, ?_⟩
      · rw [highBit_eq_zero, toNat_lastDigit hlt]
        exact hlt
      · rw [value, toNat_lastDigit hlt, value, Nat.mod_eq_of_lt hlt]
        rfl
    · have hdiv : n / 128 < 128 ^ k := by
        rw [Nat.pow_succ] at hn
        omega
      have hk' : 0 < k := by
        rcases Nat.eq_zero_or_pos k with rfl | hk'
        · simp at hdiv
          omega
        · exact hk'
      have hmore : ¬ (n % 128 + 128).toUInt8 &&& 0x80 = 0 := by
        rw [highBit_eq_zero, toNat_digit]
        omega
      obtain ⟨hterm, hval⟩ := ih hdiv hk'
      rw [varintDigits_of_ge k (Nat.not_lt.mp hlt)]
      refine ⟨(terminated_more hmore).mpr hterm, ?_⟩
      unfold value
      rw [toNat_digit, hval]
      omega

lemma extends_of_short (v : UInt32) (c : List UInt8) {i : ℕ} (h : i + c.length ≤ 5) :
    Extends v i c := by
  induction c generalizing i with
  | nil => trivial
  | cons b c ih =>
    rw [List.length_cons] at h
    exact ⟨fun hi => by omega, ih (by omega)⟩

lemma varint32_reads_varint {n : ℕ} (hn : n < 2 ^ 32) :
    Reads pbDecodeVarint32 (varint n) n.toUInt32 := by
  have hbound : n < 128 ^ 10 := by omega
  obtain ⟨hterm, hval⟩ := varintDigits_spec 10 hbound (by omega)
  have hlen : (varint n).length ≤ 5 := varintDigits_length_le 10 (by omega) (by omega)
  refine varint32_reads_iff.mpr ⟨hterm, fun _ => ?_, extends_of_short _ _ (by omega), ?_⟩
  · rw [varint, hval]
    exact hn
  · rw [varint, hval]

lemma key_reads {wireType tag : ℕ} (hw : wireType < 8) (ht : 0 < tag) (ht' : tag < 2 ^ 29) :
    Reads keyReader (key wireType tag) (some (wireType, tag)) :=
  keyReader_of_reads hw ht ht' (varint32_reads_varint (by omega))

/-- A content of any size that a length can tell is cut out. -/
lemma delimited_reads {content : List UInt8} (h : content.length < 2 ^ 32) :
    Reads contentReader (delimited content) content :=
  contentReader_of_reads h (varint32_reads_varint h)

end RoombaBrain.PbVarint32
