import RoombaBrain.ByteReader

/-!
The input stream of nanopb and the readers of keys, varints and skipped values
(`pb_decode.c`).

A stream over a buffer is a window of the memory. Error texts are those of
`PB_RETURN_ERROR`; nothing is read after the first error, so the text a reader fails with is
the one `PB_GET_ERROR` gives.
-/

namespace RoombaBrain.PbStream

open RoombaBrain.ByteReader

/-- `pb_istream_t` over a buffer: `state` and `bytes_left`. -/
abbrev PbIstream := Window

/-- `pb_istream_from_buffer` -/
def pbIstreamFromBuffer (buf : List UInt8) (bufsize : ℕ) : PbIstream := ⟨buf, bufsize⟩

/-- `buf_read`: the bytes at the read position and the memory after them. There is no such
read past the end of the memory, where the C function goes on regardless. -/
def bufRead (state : List UInt8) (count : ℕ) : Option (List UInt8 × List UInt8) :=
  if count ≤ state.length then some (state.take count, state.drop count) else none

/-- `pb_read` -/
def pbRead (count : ℕ) : Reader (List UInt8) := fun s =>
  if s.bytesLeft < count then .error "end-of-stream"
  else match bufRead s.state count with
    | none => .error "io error"
    | some (buf, state) => .ok (buf, ⟨state, s.bytesLeft - count⟩)

/-- `pb_readbyte` -/
def pbReadbyte : Reader UInt8 := fun s =>
  if s.bytesLeft = 0 then .error "end-of-stream"
  else match s.state with
    | [] => .error "io error"
    | byte :: state => .ok (byte, ⟨state, s.bytesLeft - 1⟩)

/-! ### Varints -/

/-- One round of the multibyte loop of `pb_decode_varint32_eof`: the digit of `byte` enters
`result` at `bitpos`; past 32 bits it may only repeat the sign. -/
def varint32Digit (bitpos : ℕ) (result : UInt32) (byte : UInt8) : Except String UInt32 :=
  if 32 ≤ bitpos then
    let signExtension : UInt8 := if bitpos < 63 then 0xFF else 0x01
    if byte &&& 0x7F ≠ 0 ∧ (result >>> 31 = 0 ∨ byte ≠ signExtension) then
      .error "varint overflow"
    else .ok result
  else .ok (result ||| ((byte &&& 0x7F).toUInt32 <<< bitpos.toUInt32))

/-- The multibyte loop, by recursion on the bytes left: with none left the next
`pb_readbyte` fails. `uint_fast8_t` is an `unsigned int` on the target, so `bitpos` does not
wrap. -/
def varint32Loop : ℕ → ℕ → UInt32 → Reader UInt32
  | 0, _, _ => fail "end-of-stream"
  | n + 1, bitpos, result => do
    let byte ← pbReadbyte
    match varint32Digit bitpos result byte with
    | .error e => fail e
    | .ok result =>
      if byte &&& 0x80 ≠ 0 then varint32Loop n (bitpos + 7) result
      else if bitpos + 7 = 35 ∧ byte &&& 0x70 ≠ 0 then fail "varint overflow"
      else pure result

/-- The part of `pb_decode_varint32_eof` after its first byte. -/
def varint32Rest (byte : UInt8) : Reader UInt32 := fun s =>
  if byte &&& 0x80 = 0 then .ok (byte.toUInt32, s)
  else varint32Loop s.bytesLeft 7 (byte &&& 0x7F).toUInt32 s

/-- `pb_decode_varint32_eof`; `none` is `false` with `*eof` set. -/
def pbDecodeVarint32Eof : Reader (Option UInt32) := fun s =>
  match pbReadbyte s with
  | .error e => if s.bytesLeft = 0 then .ok (none, s) else .error e
  | .ok (byte, s) =>
    match varint32Rest byte s with
    | .error e => .error e
    | .ok (result, s) => .ok (some result, s)

/-- `pb_decode_varint32` -/
def pbDecodeVarint32 : Reader UInt32 := do
  match ← pbDecodeVarint32Eof with
  | none => fail "end-of-stream"
  | some result => pure result

/-- The loop of `pb_decode_varint`. Ten rounds raise `bitpos` to 70, past its bound of 64. -/
def varintLoop : ℕ → ℕ → UInt64 → Reader UInt64
  | 0, _, _ => fail "varint overflow"
  | k + 1, bitpos, result =>
    if 64 ≤ bitpos then fail "varint overflow"
    else do
      let byte ← pbReadbyte
      let result := result ||| ((byte &&& 0x7F).toUInt64 <<< bitpos.toUInt64)
      if byte &&& 0x80 ≠ 0 then varintLoop k (bitpos + 7) result else pure result

/-- `pb_decode_varint` -/
def pbDecodeVarint : Reader UInt64 := varintLoop 10 0 0

/-! ### Keys and skipped values -/

/-- `pb_decode_tag`: wire type and field number; `none` is `false` with `*eof` set, at the end
of the stream or at a zero key. -/
def pbDecodeTag : Reader (Option (ℕ × ℕ)) := do
  match ← pbDecodeVarint32Eof with
  | none => pure none
  | some temp =>
    if temp = 0 then pure none
    else pure (some ((temp &&& 7).toNat, (temp >>> 3).toNat))

/-- The loop of `pb_skip_varint`, by recursion on the bytes left. -/
def skipVarintLoop : ℕ → Reader Unit
  | 0 => fail "end-of-stream"
  | n + 1 => do
    let byte ← pbReadbyte
    if byte &&& 0x80 ≠ 0 then skipVarintLoop n else pure ()

/-- `pb_skip_varint` -/
def pbSkipVarint : Reader Unit := fun s => skipVarintLoop s.bytesLeft s

/-- `pb_skip_string` -/
def pbSkipString : Reader Unit := do
  let length ← pbDecodeVarint32
  let _ ← pbRead length.toNat
  pure ()

/-- `pb_skip_field`, by wire type: `PB_WT_VARINT`, `PB_WT_64BIT`, `PB_WT_STRING`,
`PB_WT_32BIT`. -/
def pbSkipField : ℕ → Reader Unit
  | 0 => pbSkipVarint
  | 1 => do let _ ← pbRead 8; pure ()
  | 2 => pbSkipString
  | 5 => do let _ ← pbRead 4; pure ()
  | _ => fail "invalid wire_type"

/-! ### Substreams -/

/-- `pb_make_string_substream`: the substream, and the stream whose `bytes_left` is reduced but
whose position has not moved yet. -/
def pbMakeStringSubstream (stream : PbIstream) : Except String (PbIstream × PbIstream) :=
  match pbDecodeVarint32 stream with
  | .error e => .error e
  | .ok (size, stream) =>
    if stream.bytesLeft < size.toNat then .error "parent stream too short"
    else .ok (⟨stream.state, size.toNat⟩, ⟨stream.state, stream.bytesLeft - size.toNat⟩)

/-- `pb_close_string_substream`: skip what is left of the substream and take over its
position. -/
def pbCloseStringSubstream (stream substream : PbIstream) : Except String PbIstream :=
  if substream.bytesLeft ≠ 0 then
    match pbRead substream.bytesLeft substream with
    | .error e => .error e
    | .ok (_, substream) => .ok ⟨substream.state, stream.bytesLeft⟩
  else .ok ⟨substream.state, stream.bytesLeft⟩

end RoombaBrain.PbStream
