import RoombaBrain.PbFields
import RoombaBrain.Varint

/-!
The readers of nanopb take varints back.

The shortest encoding of a number is read as that number, as a value, as a key and as the length
of a content.
-/

namespace RoombaBrain.PbVarint

open RoombaBrain.ByteReader RoombaBrain.PbStream RoombaBrain.PbLocal RoombaBrain.PbDecode
  RoombaBrain.PbMessage RoombaBrain.PbFields RoombaBrain.Varint

lemma enterDigit {b : UInt8} {bitpos r d : ℕ} (hb : b.toNat % 128 = d) (hpos : bitpos < 64)
    (hr : r < 2 ^ bitpos) (hsum : r + d * 2 ^ bitpos < 2 ^ 64) :
    r.toUInt64 ||| ((b &&& 0x7F).toUInt64 <<< bitpos.toUInt64) =
      (r + d * 2 ^ bitpos).toUInt64 := by
  have hposmod : bitpos.toUInt64.toNat % 64 = bitpos := by
    simp only [Nat.toUInt64, UInt64.toNat_ofNat']
    omega
  have hrlt : r < 2 ^ 64 := by omega
  have hdlt : d * 2 ^ bitpos < 2 ^ 64 := by omega
  have hor := or_shift_eq_add (d := d) hr
  rw [Nat.shiftLeft_eq] at hor
  rw [← UInt64.toNat_inj, UInt64.toNat_or, UInt64.toNat_shiftLeft, hposmod,
    UInt8.toNat_toUInt64, toNat_lowBits, hb, Nat.shiftLeft_eq, Nat.mod_eq_of_lt hdlt]
  simp only [Nat.toUInt64, UInt64.toNat_ofNat', Nat.mod_eq_of_lt hrlt, Nat.mod_eq_of_lt hsum, hor]

/-- The loop on a byte, below 64 bits. -/
lemma varintLoop_cons (k : ℕ) {bitpos : ℕ} (result : UInt64) (hpos : bitpos < 64) (b : UInt8)
    (w m : List UInt8) : varintLoop (k + 1) bitpos result (on (b :: w) m) =
      (if b &&& 0x80 ≠ 0
        then varintLoop k (bitpos + 7) (result ||| ((b &&& 0x7F).toUInt64 <<< bitpos.toUInt64))
        else pure (result ||| ((b &&& 0x7F).toUInt64 <<< bitpos.toUInt64)) : Reader UInt64)
        (on w m) := by
  simp only [varintLoop, if_neg (Nat.not_le.mpr hpos)]
  exact pbReadbyte_bind _ b w m

lemma varintLoop_last (k : ℕ) {n bitpos r : ℕ} (hn : n < 128) (hpos : bitpos < 64)
    (hr : r < 2 ^ bitpos) (hsum : r + n * 2 ^ bitpos < 2 ^ 64) :
    Reads (varintLoop (k + 1) bitpos r.toUInt64) (varintDigits (k + 1) n)
      (r + n * 2 ^ bitpos).toUInt64 := by
  have hb : n.toUInt8.toNat % 128 = n := by rw [toNat_lastDigit hn, Nat.mod_eq_of_lt hn]
  have hstop : ¬ n.toUInt8 &&& 0x80 ≠ 0 := by
    rw [not_not, highBit_eq_zero, toNat_lastDigit hn]
    exact hn
  rw [varintDigits_of_lt k hn]
  refine Reads.cons (g := pure (r + n * 2 ^ bitpos).toUInt64) (fun w m => ?_) (Reads.pure _)
  rw [varintLoop_cons _ _ hpos, if_neg hstop, enterDigit hb hpos hr hsum]

lemma varintLoop_reads (k : ℕ) {n bitpos r : ℕ} (hn : n < 128 ^ (k + 1)) (hpos : bitpos < 64)
    (hr : r < 2 ^ bitpos) (hsum : r + n * 2 ^ bitpos < 2 ^ 64) :
    Reads (varintLoop (k + 1) bitpos r.toUInt64) (varintDigits (k + 1) n)
      (r + n * 2 ^ bitpos).toUInt64 := by
  induction k generalizing n bitpos r with
  | zero => exact varintLoop_last 0 (by simpa using hn) hpos hr hsum
  | succ k ih =>
    by_cases hlt : n < 128
    · exact varintLoop_last (k + 1) hlt hpos hr hsum
    · -- the low digit stays below the next bit position, where the others are added
      have hge : 128 ≤ n := Nat.not_lt.mp hlt
      have hpow : (2 : ℕ) ^ (bitpos + 7) = 128 * 2 ^ bitpos := by rw [Nat.pow_add]; omega
      have hsplit : n * 2 ^ bitpos = n % 128 * 2 ^ bitpos + n / 128 * 2 ^ (bitpos + 7) := by
        rw [hpow, ← Nat.mul_assoc, ← Nat.add_mul, Nat.mul_comm (n / 128), Nat.mod_add_div]
      have hle : 2 ^ (bitpos + 7) ≤ n / 128 * 2 ^ (bitpos + 7) :=
        Nat.le_mul_of_pos_left _ (by omega)
      have hpos' : bitpos + 7 < 64 := (Nat.pow_lt_pow_iff_right (by omega : 1 < 2)).mp (by omega)
      have hr' : r + n % 128 * 2 ^ bitpos < 2 ^ (bitpos + 7) := by
        have : n % 128 * 2 ^ bitpos ≤ 127 * 2 ^ bitpos := Nat.mul_le_mul_right _ (by omega)
        omega
      have hb : (n % 128 + 128).toUInt8.toNat % 128 = n % 128 := by rw [toNat_digit]; omega
      have hmore : (n % 128 + 128).toUInt8 &&& 0x80 ≠ 0 := by
        rw [Ne, highBit_eq_zero, toNat_digit]
        omega
      have hrest := ih (n := n / 128) (by rw [Nat.pow_succ] at hn; omega) hpos' hr' (by omega)
      rw [varintDigits_of_ge (k + 1) hge, hsplit, ← Nat.add_assoc]
      refine Reads.cons (fun w m => ?_) hrest
      rw [varintLoop_cons _ _ hpos, if_pos hmore, enterDigit hb hpos hr (by omega)]

/-- **The shortest encoding of a 64-bit number is read back.** -/
theorem pbDecodeVarint_reads {n : ℕ} (hn : n < 2 ^ 64) :
    Reads pbDecodeVarint (varint n) n.toUInt64 := by
  have h : Reads (varintLoop 10 0 (0 : ℕ).toUInt64) (varintDigits 10 n) (0 + n * 2 ^ 0).toUInt64 :=
    varintLoop_reads 9 (by omega) (by omega) (by omega) (by omega)
  rw [Nat.pow_zero, Nat.mul_one, Nat.zero_add] at h
  exact h

/-- A number below 128 is one byte, also for the readers of keys and lengths. -/
lemma pbDecodeVarint32_reads {n : ℕ} (hn : n < 128) :
    Reads pbDecodeVarint32 (varint n) n.toUInt32 := by
  intro r m
  have hstop : n.toUInt8 &&& 0x80 = 0 := by
    rw [highBit_eq_zero, toNat_lastDigit hn]
    exact hn
  have hval : n.toUInt8.toUInt32 = n.toUInt32 := by
    rw [← UInt32.toNat_inj, UInt8.toNat_toUInt32, toNat_lastDigit hn]
    simp only [Nat.toUInt32, UInt32.toNat_ofNat']
    omega
  rw [varint_of_lt hn, List.singleton_append, pbDecodeVarint32_cons]
  simp [varint32Rest, hstop, hval]

def key (wireType tag : ℕ) : List UInt8 := varint (tag * 8 + wireType)

/-- A reader of keys takes what the narrow reader takes for the key. -/
lemma keyReader_of_reads {wireType tag : ℕ} {c : List UInt8} (hw : wireType < 8) (ht : 0 < tag)
    (ht' : tag < 2 ^ 29) (hread : Reads pbDecodeVarint32 c (tag * 8 + wireType).toUInt32) :
    Reads keyReader c (some (wireType, tag)) := by
  have htemp : (tag * 8 + wireType).toUInt32.toNat = tag * 8 + wireType := by
    simp only [Nat.toUInt32, UInt32.toNat_ofNat']
    omega
  have hne : (tag * 8 + wireType).toUInt32 ≠ 0 := by
    rw [Ne, ← UInt32.toNat_inj, htemp, UInt32.toNat_zero]
    omega
  have hwire : ((tag * 8 + wireType).toUInt32 &&& 7).toNat = wireType := by
    rw [UInt32.toNat_and, htemp]
    exact (Nat.and_two_pow_sub_one_eq_mod _ 3).trans (by omega)
  have htag : ((tag * 8 + wireType).toUInt32 >>> 3).toNat = tag := by
    rw [UInt32.toNat_shiftRight, htemp, Nat.shiftRight_eq_div_pow]
    show (tag * 8 + wireType) / 8 = tag
    omega
  have h := hread.bind (g := fun temp : UInt32 => if temp = 0 then pure none
    else pure (some ((temp &&& 7).toNat, (temp >>> 3).toNat))) (d := [])
    (b := some (wireType, tag)) (by
      rw [if_neg hne, hwire, htag]
      exact Reads.pure _)
  rwa [List.append_nil] at h

lemma keyReader_reads {wireType tag : ℕ} (hw : wireType < 8) (ht : 0 < tag) (ht' : tag < 16) :
    Reads keyReader (key wireType tag) (some (wireType, tag)) :=
  keyReader_of_reads hw ht (by omega) (pbDecodeVarint32_reads (by omega))

def delimited (content : List UInt8) : List UInt8 := varint content.length ++ content

lemma contentReader_of_reads {content c : List UInt8} (h : content.length < 2 ^ 32)
    (hread : Reads pbDecodeVarint32 c content.length.toUInt32) :
    Reads contentReader (c ++ content) content := by
  refine hread.bind ?_
  have hsize : content.length.toUInt32.toNat = content.length := by
    simp only [Nat.toUInt32, UInt32.toNat_ofNat']
    omega
  rw [hsize]
  exact pbRead_reads content

lemma contentReader_reads {content : List UInt8} (h : content.length < 128) :
    Reads contentReader (delimited content) content :=
  contentReader_of_reads (by omega) (pbDecodeVarint32_reads h)

/-! ### Fields -/

variable {fields : List PbField}

lemma uint32_reads (inner : List PbField → List UInt8 → Parse) {v : ℕ} (hv : v < 2 ^ 64)
    (wireType tag t : ℕ) : Reads (bodyReader inner (some (.uint32 t)) wireType tag) (varint v)
      (decide (v < 2 ^ 32), .uint32 tag v.toUInt32) := by
  have hlow : v.toUInt64.toUInt32 = v.toUInt32 := by
    rw [← UInt32.toNat_inj, UInt64.toNat_toUInt32]
    simp only [Nat.toUInt64, Nat.toUInt32, UInt64.toNat_ofNat', UInt32.toNat_ofNat']
    omega
  have hfit : v.toUInt32.toUInt64 = v.toUInt64 ↔ v < 2 ^ 32 := by
    rw [← UInt64.toNat_inj, UInt32.toNat_toUInt64]
    simp only [Nat.toUInt64, Nat.toUInt32, UInt64.toNat_ofNat', UInt32.toNat_ofNat']
    omega
  have h := (pbDecodeVarint_reads hv).bind (g := fun value : UInt64 =>
    (pure (decide (value.toUInt32.toUInt64 = value), Node.uint32 tag value.toUInt32) :
      Reader (Bool × Node))) (Reads.pure _)
  rw [List.append_nil, hlow, decide_eq_decide.mpr hfit] at h
  exact h

lemma oneof_reads (inner : List PbField → List UInt8 → Parse) {content : List UInt8}
    (h : content.length < 128) (wireType tag t : ℕ) (entries : List PbField) :
    Reads (bodyReader inner (some (.oneof t entries)) wireType tag) (delimited content)
      ((inner entries content).whole, .message true tag (inner entries content).nodes) := by
  have h := (contentReader_reads h).bind (g := fun content =>
    (pure ((inner entries content).whole, Node.message true tag (inner entries content).nodes) :
      Reader (Bool × Node))) (Reads.pure _)
  rw [List.append_nil] at h
  exact h

lemma parse_uint32 {tag t v : ℕ} (hfind : pbFieldIterFind fields tag = some (.uint32 t))
    (h0 : 0 < tag) (h16 : tag < 16) (hv : v < 2 ^ 32) (r : List UInt8) :
    parse fields (key 0 tag ++ (varint v ++ r)) =
      ⟨(key 0 tag ++ varint v, .uint32 tag v.toUInt32) :: (parse fields r).items,
        (parse fields r).whole⟩ := by
  have hbody := uint32_reads parse (show v < 2 ^ 64 by omega) 0 tag t
  rw [decide_eq_true hv, ← hfind] at hbody
  exact parse_cons (keyReader_reads (by omega) h0 h16) hbody r

end RoombaBrain.PbVarint
