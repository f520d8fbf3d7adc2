import RoombaBrain.PbVarint

/-!
The table-driven encoder of nanopb (`pb_encode.c`).

An encoder writes to a stream or fails; the stream survives a failure with what was written
before. The tables are those of the decoder.
-/

namespace RoombaBrain.PbEncode

open RoombaBrain.Varint RoombaBrain.PbDecode RoombaBrain.PbVarint

/-- `pb_ostream_t`: whether there is a `callback` that writes, what it has written to `state`,
`max_size` and `bytes_written`. -/
structure PbOstream where
  callback : Bool
  state : List UInt8
  maxSize : ℕ
  bytesWritten : ℕ

/-- `pb_ostream_from_buffer` -/
def pbOstreamFromBuffer (bufsize : ℕ) : PbOstream := ⟨true, [], bufsize, 0⟩

/-- `PB_OSTREAM_SIZING` -/
def pbOstreamSizing : PbOstream := ⟨false, [], 0, 0⟩

/-- The status of an encoder, and the stream it leaves. -/
abbrev Encoder := PbOstream → Except String Unit × PbOstream

def andThen (f g : Encoder) : Encoder := fun stream =>
  match f stream with
  | (.error e, stream) => (.error e, stream)
  | (.ok (), stream) => g stream

def skip : Encoder := fun stream => (.ok (), stream)

/-- `pb_write`; without a callback the bytes are only counted. -/
def pbWrite (buf : List UInt8) : Encoder := fun stream =>
  if stream.callback then
    if stream.maxSize < stream.bytesWritten + buf.length then (.error "stream full", stream)
    else (.ok (), { stream with
      state := stream.state ++ buf
      bytesWritten := stream.bytesWritten + buf.length })
  else (.ok (), { stream with bytesWritten := stream.bytesWritten + buf.length })

/-- The loop of `pb_encode_varint`, which fills at most ten bytes. -/
def varintBuffer : ℕ → UInt64 → List UInt8
  | 0, _ => []
  | k + 1, value =>
    if value = 0 then [] else ((value &&& 0x7F) ||| 0x80).toUInt8 :: varintBuffer k (value >>> 7)

/-- `pb_encode_varint` -/
def pbEncodeVarint (value : UInt64) : Encoder :=
  if value ≤ 0x7F then pbWrite [value.toUInt8]
  else
    let buffer := varintBuffer 10 value
    pbWrite (buffer.modify (buffer.length - 1) fun byte => byte &&& 0x7F)

/-- `pb_encode_tag` -/
def pbEncodeTag (wireType tag : ℕ) : Encoder :=
  pbEncodeVarint ((tag.toUInt64 <<< 3) ||| wireType.toUInt64)

/-- `pb_encode_tag_for_field` -/
def pbEncodeTagForField : PbField → Encoder
  | .uint32 tag => pbEncodeTag 0 tag
  | .message tag _ | .oneof tag _ => pbEncodeTag 2 tag
  | .callback _ | .last => fun stream => (.error "invalid field type", stream)

/-- `pb_encode_submessage`: one run to get the size, and one to write. -/
def pbEncodeSubmessage (encode : Encoder) : Encoder := fun stream =>
  match encode pbOstreamSizing with
  | (.error e, _) => (.error e, stream)
  | (.ok (), sizing) =>
    let size := sizing.bytesWritten
    andThen (pbEncodeVarint size.toUInt64) (fun stream =>
      if stream.callback then
        if stream.maxSize < stream.bytesWritten + size then (.error "stream full", stream)
        else
          let r := encode { stream with maxSize := size, bytesWritten := 0 }
          let stream := { stream with
            state := r.2.state
            bytesWritten := stream.bytesWritten + r.2.bytesWritten }
          if r.2.bytesWritten ≠ size then (.error "submsg size changed", stream)
          else (r.1, stream)
      else (.ok (), { stream with bytesWritten := stream.bytesWritten + size })) stream

/-- `pb_check_proto3_default_value`; a callback field is `NULL`. -/
def pbCheckProto3DefaultValue : PbField → PbStruct → Bool
  | .uint32 tag, src => src.num tag = 0
  | .message tag fields, src => allDefault fields (src.sub tag)
  | .oneof _ _, src => src.num 0 = 0
  | .callback _, _ | .last, _ => true
where
  allDefault : List PbField → PbStruct → Bool
    | [], _ => true
    | field :: fields, src => pbCheckProto3DefaultValue field src && allDefault fields src

/-- `encode_field`: a singular field is written unless it has its default value, a member of a
oneof if it is the one selected, and a callback field not at all. -/
def encodeField : PbField → PbStruct → Encoder
  | .uint32 tag, src =>
    if pbCheckProto3DefaultValue (.uint32 tag) src then skip
    else andThen (pbEncodeTagForField (.uint32 tag)) (pbEncodeVarint (src.num tag).toUInt64)
  | .message tag fields, src =>
    if pbCheckProto3DefaultValue (.message tag fields) src then skip
    else andThen (pbEncodeTagForField (.message tag fields))
      (pbEncodeSubmessage (encodeFields fields (src.sub tag)))
  | .oneof tag fields, src =>
    if src.num 0 = tag.toUInt32 then andThen (pbEncodeTagForField (.oneof tag fields))
      (pbEncodeSubmessage (encodeFields fields (src.sub tag)))
    else skip
  | .callback _, _ | .last, _ => skip
where
  /-- the loop of `pb_encode` -/
  encodeFields : List PbField → PbStruct → Encoder
    | [], _ => skip
    | field :: fields, src => andThen (encodeField field src) (encodeFields fields src)

/-- `pb_encode` -/
def pbEncode (stream : PbOstream) (fields : List PbField) (src : PbStruct) :
    Except String Unit × PbOstream :=
  encodeField.encodeFields fields src stream

/-! ### Varints -/

lemma toNat_low7 (value : UInt64) : (value &&& 0x7F).toNat = value.toNat % 128 := by
  rw [UInt64.toNat_and]
  exact Nat.and_two_pow_sub_one_eq_mod value.toNat 7

lemma toNat_shift7 (value : UInt64) : (value >>> 7).toNat = value.toNat / 128 := by
  rw [UInt64.toNat_shiftRight, Nat.shiftRight_eq_div_pow]
  rfl

lemma byte_eq (value : UInt64) :
    ((value &&& 0x7F) ||| 0x80).toUInt8 = (value.toNat % 128 + 128).toUInt8 := by
  have hor : (value.toNat % 128) ||| 128 = value.toNat % 128 + 128 :=
    or_shift_eq_add (d := 1) (i := 7) (Nat.mod_lt _ (by omega))
  rw [← UInt8.toNat_inj, toNat_digit, UInt64.toNat_toUInt8, UInt64.toNat_or, toNat_low7]
  show (value.toNat % 128 ||| 128) % 2 ^ 8 = _
  rw [hor]
  omega

lemma varintBuffer_zero (k : ℕ) : varintBuffer k 0 = [] := by
  cases k <;> rfl

lemma varintBuffer_ne_nil {k : ℕ} {value : UInt64} (hk : 0 < k) (hv : value ≠ 0) :
    varintBuffer k value ≠ [] := by
  obtain ⟨k, rfl⟩ := Nat.exists_eq_succ_of_ne_zero (Nat.ne_of_gt hk)
  simp [varintBuffer, hv]

/-- The buffer holds the digits, apart from the high bit of the last one. -/
lemma varintBuffer_eq (k : ℕ) {value : UInt64} (hv : value ≠ 0) (hk : value.toNat < 128 ^ k) :
    (varintBuffer k value).modify ((varintBuffer k value).length - 1) (fun byte => byte &&& 0x7F) =
      varintDigits k value.toNat := by
  induction k generalizing value with
  | zero => exact absurd (UInt64.toNat_inj.mp (by simpa using hk)) hv
  | succ k ih =>
    rw [varintBuffer, if_neg hv, byte_eq]
    by_cases hlt : value.toNat < 128
    · have hshift : value >>> 7 = 0 := by
        rw [← UInt64.toNat_inj, toNat_shift7, Nat.div_eq_of_lt hlt]
        rfl
      have hlast : (value.toNat % 128 + 128).toUInt8 &&& 0x7F = value.toNat.toUInt8 := by
        rw [← UInt8.toNat_inj, toNat_lowBits, toNat_digit, toNat_lastDigit hlt]
        omega
      rw [hshift, varintBuffer_zero, varintDigits_of_lt k hlt, ← hlast]
      rfl
    · have hshift : value >>> 7 ≠ 0 := by
        rw [Ne, ← UInt64.toNat_inj, toNat_shift7, UInt64.toNat_zero]
        omega
      have hk' : (value >>> 7).toNat < 128 ^ k := by
        rw [toNat_shift7]
        rw [Nat.pow_succ] at hk
        omega
      have hpos : 0 < k := by
        rcases Nat.eq_zero_or_pos k with rfl | hpos
        · simp at hk
          omega
        · exact hpos
      have hlen := List.length_pos_iff.mpr (varintBuffer_ne_nil hpos hshift)
      have hidx : (varintBuffer k (value >>> 7)).length + 1 - 1 =
          (varintBuffer k (value >>> 7)).length - 1 + 1 := by omega
      rw [varintDigits_of_ge k (by omega), List.length_cons, hidx, List.modify_succ_cons,
        ih hshift hk', toNat_shift7]

/-- **`pb_encode_varint` writes the shortest encoding.** -/
theorem pbEncodeVarint_eq (value : UInt64) :
    pbEncodeVarint value = pbWrite (varint value.toNat) := by
  have hle : value ≤ 0x7F ↔ value.toNat < 128 := by
    rw [UInt64.le_iff_toNat_le]
    exact Nat.lt_succ_iff.symm
  rw [pbEncodeVarint]
  by_cases hlt : value.toNat < 128
  · have hbyte : value.toUInt8 = value.toNat.toUInt8 := by
      rw [← UInt8.toNat_inj, toNat_lastDigit hlt, UInt64.toNat_toUInt8]
      omega
    rw [if_pos (hle.mpr hlt), varint_of_lt hlt, hbyte]
  · have hv : value ≠ 0 := by
      rintro rfl
      exact hlt (by decide)
    have hbound : value.toNat < 128 ^ 10 := by
      have := value.toNat_lt
      omega
    rw [if_neg (mt hle.mp hlt), varint, ← varintBuffer_eq 10 hv hbound]

lemma pbEncodeTag_eq {wireType tag : ℕ} (hw : wireType < 8) (ht : tag < 2 ^ 32) :
    pbEncodeTag wireType tag = pbWrite (key wireType tag) := by
  have htag : tag.toUInt64.toNat = tag := by
    simp only [Nat.toUInt64, UInt64.toNat_ofNat']
    omega
  have hwire : wireType.toUInt64.toNat = wireType := by
    simp only [Nat.toUInt64, UInt64.toNat_ofNat']
    omega
  have hkey : tag * 2 ^ 3 % 2 ^ 64 ||| wireType = tag * 8 + wireType := by
    calc tag * 2 ^ 3 % 2 ^ 64 ||| wireType = wireType ||| tag <<< 3 := by
          rw [Nat.mod_eq_of_lt (by omega), Nat.shiftLeft_eq, Nat.or_comm]
      _ = wireType + tag * 2 ^ 3 := or_shift_eq_add hw
      _ = tag * 8 + wireType := by omega
  rw [pbEncodeTag, pbEncodeVarint_eq, UInt64.toNat_or, UInt64.toNat_shiftLeft, htag, hwire,
    Nat.shiftLeft_eq, key, ← hkey]
  rfl

/-! ### Writing with room -/

def PbOstream.wrote (stream : PbOstream) (buf : List UInt8) : PbOstream :=
  { stream with
    state := stream.state ++ buf
    bytesWritten := stream.bytesWritten + buf.length }

lemma pbWrite_room (stream : PbOstream) (buf : List UInt8) (hc : stream.callback = true)
    (hroom : stream.bytesWritten + buf.length ≤ stream.maxSize) :
    pbWrite buf stream = (.ok (), stream.wrote buf) := by
  rw [pbWrite, if_pos hc, if_neg (Nat.not_lt.mpr hroom)]
  rfl

end RoombaBrain.PbEncode
