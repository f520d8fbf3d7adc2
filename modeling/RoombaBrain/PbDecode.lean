import RoombaBrain.PbStream

/-!
The table-driven decoder of nanopb (`pb_decode.c`, `pb_common.c`).

A message type is its `pb_field_t` table. Only the entries the generator makes for messages
without an `.options` file occur: `uint32` and `enum` fields, submessages, members of one
oneof, and callback fields, whose callback stays `NULL`. No table has a required, repeated
static, pointer or extension field. A repeated callback field, as the `notes` of a song are, has its
items counted by `pb_decode_noinit`, but zero are expected (`PbIterDecode`).
-/

namespace RoombaBrain.PbDecode

open RoombaBrain.ByteReader RoombaBrain.PbStream

/-- An entry of a `pb_field_t` table, by the macro that fills it in. -/
inductive PbField
  /-- `PB_FIELD(tag, UINT32 | UENUM, SINGULAR, STATIC, …)`, four bytes of data -/
  | uint32 (tag : ℕ)
  /-- `PB_FIELD(tag, MESSAGE, SINGULAR, STATIC, …, &fields)` -/
  | message (tag : ℕ) (fields : List PbField)
  /-- `PB_ONEOF_FIELD(request, tag, MESSAGE, ONEOF, STATIC, …, &fields)` -/
  | oneof (tag : ℕ) (fields : List PbField)
  /-- `PB_FIELD(tag, …, CALLBACK, …)` -/
  | callback (tag : ℕ)
  /-- `PB_LAST_FIELD` -/
  | last

def PbField.tag : PbField → ℕ
  | .uint32 tag | .message tag _ | .oneof tag _ | .callback tag => tag
  | .last => 0

/-- `pb_field_iter_find`. The iterator stands on the end marker only in an empty table, where a
search for tag 0 finds it. -/
def pbFieldIterFind (fields : List PbField) (tag : ℕ) : Option PbField :=
  match fields with
  | [] => if tag = 0 then some .last else none
  | _ => fields.find? fun field => field.tag = tag

/-! ### The struct behind `dest_struct` -/

/-- The cells of a message struct: the route through its submessages by tag, then the tag of a
scalar field, or 0 for the `which_` field of the oneof. -/
def PbStruct := List ℕ → ℕ → UInt32

def PbStruct.zero : PbStruct := fun _ _ => 0

def PbStruct.num (d : PbStruct) (slot : ℕ) : UInt32 := d [] slot

def PbStruct.sub (d : PbStruct) (tag : ℕ) : PbStruct := fun route => d (tag :: route)

def PbStruct.setNum (d : PbStruct) (slot : ℕ) (v : UInt32) : PbStruct := fun route k =>
  match route with
  | [] => if k = slot then v else d [] k
  | _ => d route k

def PbStruct.setSub (d : PbStruct) (tag : ℕ) (s : PbStruct) : PbStruct := fun route k =>
  match route with
  | [] => d [] k
  | t :: route => if t = tag then s route k else d (t :: route) k

section
variable (d s : PbStruct) (k t : ℕ) (v : UInt32)

@[simp] lemma num_zero : PbStruct.zero.num k = 0 := rfl
@[simp] lemma sub_zero : PbStruct.zero.sub t = PbStruct.zero := rfl
@[simp] lemma num_setNum (j : ℕ) :
    (d.setNum k v).num j = if j = k then v else d.num j := rfl
@[simp] lemma sub_setNum : (d.setNum k v).sub t = d.sub t := rfl
@[simp] lemma num_setSub : (d.setSub t s).num k = d.num k := rfl
@[simp] lemma sub_setSub (u : ℕ) :
    (d.setSub t s).sub u = if u = t then s else d.sub u := by
  funext route k
  by_cases h : u = t <;> simp [PbStruct.setSub, PbStruct.sub, h]
@[simp] lemma setNum_zero_zero : PbStruct.zero.setNum k 0 = PbStruct.zero := by
  funext route j
  cases route <;> simp [PbStruct.setNum, PbStruct.zero]
@[simp] lemma setSub_zero_zero : PbStruct.zero.setSub t PbStruct.zero = PbStruct.zero := by
  funext route j
  cases route <;> simp [PbStruct.setSub, PbStruct.zero]

end

/-- `pb_field_set_to_default` -/
def pbFieldSetToDefault : PbField → PbStruct → PbStruct
  | .uint32 tag, d => d.setNum tag 0
  | .message tag fields, d => d.setSub tag (defaults fields (d.sub tag))
  | .oneof _ _, d => d.setNum 0 0
  | .callback _, d => d
  | .last, d => d
where
  /-- the loop of `pb_message_set_to_defaults` -/
  defaults : List PbField → PbStruct → PbStruct
    | [], d => d
    | field :: fields, d => defaults fields (pbFieldSetToDefault field d)

/-- `pb_message_set_to_defaults` -/
abbrev pbMessageSetToDefaults := pbFieldSetToDefault.defaults

/-! ### Decoding -/

/-- The struct as far as it was stored to, and the stream, or the error that stopped decoding. -/
abbrev Decoded := PbStruct × Except String PbIstream

abbrev Decoder := PbStruct → PbIstream → Decoded

/-- `pb_dec_varint` on the end marker, whose data size is none of those it handles. -/
def pbDecVarint (dest : PbStruct) (stream : PbIstream) : Decoded :=
  match pbDecodeVarint stream with
  | .error e => (dest, .error e)
  | .ok _ => (dest, .error "invalid data_size")

/-- `pb_dec_uvarint` for a field of four bytes: the low 32 bits are stored before they are
compared with the value. -/
def pbDecUvarint (tag : ℕ) (dest : PbStruct) (stream : PbIstream) : Decoded :=
  match pbDecodeVarint stream with
  | .error e => (dest, .error e)
  | .ok (value, stream) =>
    let clamped := value.toUInt32
    (dest.setNum tag clamped,
      if clamped.toUInt64 ≠ value then .error "integer too large" else .ok stream)

/-- `pb_dec_submessage` of a submessage that is not an array entry. -/
def pbDecSubmessage (noinit : Decoder) (dest : PbStruct) (stream : PbIstream) : Decoded :=
  match pbMakeStringSubstream stream with
  | .error e => (dest, .error e)
  | .ok (substream, stream) =>
    match noinit dest substream with
    | (dest, .error e) => (dest, .error e)
    | (dest, .ok substream) => (dest, pbCloseStringSubstream stream substream)

/-- `decode_static_field`. The tag of a oneof member is stored and the member zeroed before its
submessage is read. The wire type of the key is not looked at. -/
def decodeStaticField (noinit : List PbField → Decoder) (field : PbField) (dest : PbStruct)
    (stream : PbIstream) : Decoded :=
  match field with
  | .uint32 tag => pbDecUvarint tag dest stream
  | .message tag fields =>
    let r := pbDecSubmessage (noinit fields) (dest.sub tag) stream
    (dest.setSub tag r.1, r.2)
  | .oneof tag fields =>
    let dest := dest.setNum 0 tag.toUInt32
    let r := pbDecSubmessage (noinit fields) (pbMessageSetToDefaults fields .zero) stream
    (dest.setSub tag r.1, r.2)
  | .callback _ => (dest, .error "invalid field type")
  | .last => pbDecVarint dest stream

/-- `decode_callback_field` without a callback. -/
def decodeCallbackField (wireType : ℕ) (dest : PbStruct) (stream : PbIstream) : Decoded :=
  match pbSkipField wireType stream with
  | .error e => (dest, .error e)
  | .ok (_, stream) => (dest, .ok stream)

/-- `decode_field` -/
def decodeField (noinit : List PbField → Decoder) (wireType : ℕ) (field : PbField)
    (dest : PbStruct) (stream : PbIstream) : Decoded :=
  match field with
  | .callback _ => decodeCallbackField wireType dest stream
  | field => decodeStaticField noinit field dest stream

/-- The loop of `pb_decode_noinit`, without the iterator and the count of repeated fields that
`PbIterDecode` has. Each round, and each submessage, takes at least one byte, so a fuel above
`bytes_left` is not used up. -/
def noinitLoop : ℕ → List PbField → Decoder
  | 0, _, dest, _ => (dest, .error "out of fuel")
  | fuel + 1, fields, dest, stream =>
    if stream.bytesLeft = 0 then (dest, .ok stream)
    else match pbDecodeTag stream with
      | .error e => (dest, .error e)
      | .ok (none, stream) => (dest, .ok stream)
      | .ok (some (wireType, tag), stream) =>
        match pbFieldIterFind fields tag with
        | none =>
          match pbSkipField wireType stream with
          | .error e => (dest, .error e)
          | .ok (_, stream) => noinitLoop fuel fields dest stream
        | some field =>
          match decodeField (noinitLoop fuel) wireType field dest stream with
          | (dest, .error e) => (dest, .error e)
          | (dest, .ok stream) => noinitLoop fuel fields dest stream

/-- `pb_decode_noinit` -/
def pbDecodeNoinit (fields : List PbField) : Decoder := fun dest stream =>
  noinitLoop (stream.bytesLeft + 1) fields dest stream

/-- `pb_decode` -/
def pbDecode (stream : PbIstream) (fields : List PbField) (dest : PbStruct) : Decoded :=
  pbDecodeNoinit fields (pbMessageSetToDefaults fields dest) stream

end RoombaBrain.PbDecode
