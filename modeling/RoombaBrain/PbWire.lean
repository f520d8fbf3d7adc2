import RoombaBrain.PbVarint32
import RoombaBrain.PbEncode

/-!
What the encoder of nanopb writes (`pb_encode.c`).

The bytes of a struct are those of its fields, in the order of the table. A stream without a
callback counts them, a stream with room takes them, and one without room is full somewhere
within them. So the two runs for a submessage never disagree about its size, and nothing is
written past the end of a buffer.
-/

namespace RoombaBrain.PbWire

open RoombaBrain.Varint RoombaBrain.PbDecode RoombaBrain.PbVarint RoombaBrain.PbEncode

/-- `pb_get_encoded_size` -/
def pbGetEncodedSize (fields : List PbField) (src : PbStruct) : Except String ℕ :=
  match pbEncode pbOstreamSizing fields src with
  | (.error e, _) => .error e
  | (.ok (), stream) => .ok stream.bytesWritten

/-- `pb_encode_nullterminated` -/
def pbEncodeNullterminated (stream : PbOstream) (fields : List PbField) (src : PbStruct) :
    Except String Unit × PbOstream :=
  andThen (fun stream => pbEncode stream fields src) (pbWrite [0]) stream

/-! ### Tables -/

/-- The field has a number that fits in a key. In the table of a submessage every field has a
number of its own as well, and so on. -/
def fieldOk : PbField → Bool
  | .uint32 tag | .callback tag => 0 < tag && tag < 2 ^ 29
  | .message tag fields | .oneof tag fields =>
    0 < tag && tag < 2 ^ 29 && decide (fields.map PbField.tag).Nodup && allOk fields
  | .last => false
where
  allOk : List PbField → Bool
    | [] => true
    | field :: fields => fieldOk field && allOk fields

/-- A table as the generator makes them: every field has a number of its own that fits in a key,
down to the tables of its submessages. -/
structure TableOk (fields : List PbField) : Prop where
  nodup : (fields.map PbField.tag).Nodup
  all : ∀ field ∈ fields, fieldOk field = true

lemma allOk_iff {fields : List PbField} :
    fieldOk.allOk fields = true ↔ ∀ field ∈ fields, fieldOk field = true := by
  induction fields with
  | nil => simp [fieldOk.allOk]
  | cons field fields ih => simp [fieldOk.allOk, ih]

lemma tag_of_ok {field : PbField} (h : fieldOk field = true) :
    0 < field.tag ∧ field.tag < 2 ^ 29 := by
  cases field <;> simp_all [fieldOk, PbField.tag]

lemma tableOk_message {tag : ℕ} {fields : List PbField}
    (h : fieldOk (.message tag fields) = true) : TableOk fields := by
  simp only [fieldOk, Bool.and_eq_true, decide_eq_true_eq] at h
  exact ⟨h.1.2, allOk_iff.mp h.2⟩

lemma tableOk_oneof {tag : ℕ} {fields : List PbField}
    (h : fieldOk (.oneof tag fields) = true) : TableOk fields := tableOk_message h

lemma TableOk.tail {field : PbField} {fields : List PbField} (h : TableOk (field :: fields)) :
    TableOk fields :=
  ⟨(List.nodup_cons.mp h.nodup).2, fun f hf => h.all f (List.mem_cons_of_mem _ hf)⟩

lemma TableOk.find {fields : List PbField} (h : TableOk fields) {field : PbField}
    (hmem : field ∈ fields) : pbFieldIterFind fields field.tag = some field := by
  have hfind : ∀ fields : List PbField, (fields.map PbField.tag).Nodup → field ∈ fields →
      (fields.find? fun f => f.tag = field.tag) = some field := by
    intro fields hnodup hmem
    induction fields with
    | nil => cases hmem
    | cons f fields ih =>
      rw [List.map_cons, List.nodup_cons] at hnodup
      rcases List.mem_cons.mp hmem with rfl | hmem
      · simp
      · have hne : f.tag ≠ field.tag := fun he =>
          hnodup.1 (he ▸ List.mem_map_of_mem hmem)
        rw [List.find?_cons_of_neg (by simpa using hne)]
        exact ih hnodup.2 hmem
  unfold pbFieldIterFind
  split
  · cases hmem
  · exact hfind _ h.nodup hmem

/-! ### The bytes of a struct -/

/-- The bytes of a field: none for a default value, a member that is not selected, or a
callback. -/
def fieldWire : PbField → PbStruct → List UInt8
  | .uint32 tag, src =>
    if pbCheckProto3DefaultValue (.uint32 tag) src then []
    else key 0 tag ++ varint (src.num tag).toNat
  | .message tag fields, src =>
    if pbCheckProto3DefaultValue (.message tag fields) src then []
    else key 2 tag ++ delimited (wire fields (src.sub tag))
  | .oneof tag fields, src =>
    if src.num 0 = tag.toUInt32 then key 2 tag ++ delimited (wire fields (src.sub tag)) else []
  | .callback _, _ | .last, _ => []
where
  wire : List PbField → PbStruct → List UInt8
    | [], _ => []
    | field :: fields, src => fieldWire field src ++ wire fields src

abbrev wire := fieldWire.wire

def fieldBound : PbField → ℕ
  | .uint32 _ => 20
  | .message _ fields | .oneof _ fields => 20 + bound fields
  | .callback _ | .last => 0
where
  bound : List PbField → ℕ
    | [] => 0
    | field :: fields => fieldBound field + bound fields

abbrev wireBound := fieldBound.bound

lemma length_varint_le (n : ℕ) : (varint n).length ≤ 10 := length_varintDigits_le 10 n

lemma length_key_le (wireType tag : ℕ) : (key wireType tag).length ≤ 10 := length_varint_le _

lemma length_submessage_le (tag : ℕ) (content : List UInt8) :
    (key 2 tag ++ delimited content).length ≤ 20 + content.length := by
  have hkey := length_key_le 2 tag
  have hlen := length_varint_le content.length
  simp only [delimited, List.length_append]
  omega

mutual

lemma length_fieldWire_le (field : PbField) (src : PbStruct) :
    (fieldWire field src).length ≤ fieldBound field := by
  cases field with
  | uint32 tag =>
    have hkey := length_key_le 0 tag
    have hvalue := length_varint_le (src.num tag).toNat
    simp only [fieldWire, fieldBound]
    split
    · simp
    · rw [List.length_append]
      omega
  | message tag fields =>
    have hcontent := length_wire_le fields (src.sub tag)
    have hsub := length_submessage_le tag (wire fields (src.sub tag))
    simp only [fieldWire, fieldBound]
    split
    · simp
    · exact Nat.le_trans hsub (Nat.add_le_add_left hcontent 20)
  | oneof tag fields =>
    have hcontent := length_wire_le fields (src.sub tag)
    have hsub := length_submessage_le tag (wire fields (src.sub tag))
    simp only [fieldWire, fieldBound]
    split
    · exact Nat.le_trans hsub (Nat.add_le_add_left hcontent 20)
    · simp
  | callback tag => exact Nat.le_refl _
  | last => exact Nat.le_refl _

lemma length_wire_le (fields : List PbField) (src : PbStruct) :
    (wire fields src).length ≤ wireBound fields := by
  cases fields with
  | nil => exact Nat.le_refl _
  | cons field fields =>
    have hfield := length_fieldWire_le field src
    have hrest := length_wire_le fields src
    simp only [wire, fieldWire.wire, wireBound, fieldBound.bound, List.length_append]
    exact Nat.add_le_add hfield hrest

end

/-! ### Encoders that write given bytes -/

def counted (stream : PbOstream) (n : ℕ) : PbOstream :=
  { stream with bytesWritten := stream.bytesWritten + n }

section
variable (stream : PbOstream) (a b : List UInt8) (m n : ℕ)

@[simp] lemma counted_callback : (counted stream n).callback = stream.callback := rfl
@[simp] lemma counted_bytesWritten :
    (counted stream n).bytesWritten = stream.bytesWritten + n := rfl
@[simp] lemma counted_zero : counted stream 0 = stream := rfl
@[simp] lemma counted_counted : counted (counted stream m) n = counted stream (m + n) := by
  simp [counted, Nat.add_assoc]
@[simp] lemma wrote_callback : (stream.wrote a).callback = stream.callback := rfl
@[simp] lemma wrote_state : (stream.wrote a).state = stream.state ++ a := rfl
@[simp] lemma wrote_maxSize : (stream.wrote a).maxSize = stream.maxSize := rfl
@[simp] lemma wrote_bytesWritten :
    (stream.wrote a).bytesWritten = stream.bytesWritten + a.length := rfl
@[simp] lemma wrote_nil : stream.wrote [] = stream := by simp [PbOstream.wrote]
@[simp] lemma wrote_wrote : (stream.wrote a).wrote b = stream.wrote (a ++ b) := by
  simp [PbOstream.wrote, Nat.add_assoc]

end

def Room (stream : PbOstream) (n : ℕ) : Prop := stream.bytesWritten + n ≤ stream.maxSize

/-- The encoder writes the bytes: a stream without a callback counts them, one with room takes
them, and one without is full after some of them. -/
structure Writes (e : Encoder) (bytes : List UInt8) : Prop where
  counts : ∀ stream : PbOstream, stream.callback = false →
    e stream = (.ok (), counted stream bytes.length)
  room : ∀ stream : PbOstream, stream.callback = true → Room stream bytes.length →
    e stream = (.ok (), stream.wrote bytes)
  full : ∀ stream : PbOstream, stream.callback = true → Room stream 0 →
    ¬ Room stream bytes.length → ∃ t u, bytes = t ++ u ∧ Room stream t.length ∧
      e stream = (.error "stream full", stream.wrote t)

lemma writes_skip : Writes skip [] where
  counts _ _ := rfl
  room stream _ _ := by rw [wrote_nil]; rfl
  full _ _ h h' := absurd h h'

lemma writes_pbWrite (buf : List UInt8) : Writes (pbWrite buf) buf where
  counts stream hc := by
    unfold pbWrite
    rw [if_neg (by simp [hc])]
    rfl
  room stream hc hroom := pbWrite_room stream buf hc hroom
  full stream hc h hfull := by
    refine ⟨[], buf, rfl, h, ?_⟩
    unfold pbWrite
    rw [if_pos hc, if_pos (Nat.lt_of_not_le hfull), wrote_nil]

section
variable {e f : Encoder} {a b : List UInt8}

lemma andThen_ok {stream stream' : PbOstream} (h : e stream = (.ok (), stream')) :
    andThen e f stream = f stream' := by
  unfold andThen
  rw [h]

lemma andThen_error {stream stream' : PbOstream} {text : String}
    (h : e stream = (.error text, stream')) : andThen e f stream = (.error text, stream') := by
  unfold andThen
  rw [h]

lemma Writes.andThen (he : Writes e a) (hf : Writes f b) :
    Writes (PbEncode.andThen e f) (a ++ b) where
  counts stream hc := by
    rw [andThen_ok (he.counts stream hc), hf.counts _ (by simpa using hc), counted_counted,
      List.length_append]
  room stream hc hroom := by
    simp only [Room, List.length_append] at hroom
    have ha : Room stream a.length := by simp only [Room]; omega
    rw [andThen_ok (he.room stream hc ha), hf.room _ (by simpa using hc)
      (by simp only [Room, wrote_bytesWritten, wrote_maxSize]; omega), wrote_wrote]
  full stream hc h hfull := by
    by_cases ha : Room stream a.length
    · -- the first part fits, and the second one is cut off
      have hroom : Room (stream.wrote a) 0 := ha
      have hnot : ¬ Room (stream.wrote a) b.length := by
        simpa [Room, Nat.add_assoc] using hfull
      obtain ⟨t, u, rfl, ht, hstop⟩ := hf.full _ (by simpa using hc) hroom hnot
      refine ⟨a ++ t, u, by rw [List.append_assoc], ?_, ?_⟩
      · simpa [Room, Nat.add_assoc] using ht
      · rw [andThen_ok (he.room stream hc ha), hstop, wrote_wrote]
    · obtain ⟨t, u, rfl, ht, hstop⟩ := he.full stream hc h ha
      exact ⟨t, u ++ b, by rw [List.append_assoc], ht, andThen_error hstop⟩

lemma writes_length {n : ℕ} (hn : n < 2 ^ 64) : Writes (pbEncodeVarint n.toUInt64) (varint n) := by
  have hval : n.toUInt64.toNat = n := by
    simp only [Nat.toUInt64, UInt64.toNat_ofNat']
    omega
  rw [pbEncodeVarint_eq, hval]
  exact writes_pbWrite _

/-- The second part of `pb_encode_submessage`, for a content of `size` bytes. -/
def writeContent (encode : Encoder) (size : ℕ) : Encoder := fun stream =>
  if stream.callback then
    if stream.maxSize < stream.bytesWritten + size then (.error "stream full", stream)
    else
      let r := encode { stream with maxSize := size, bytesWritten := 0 }
      let stream := { stream with
        state := r.2.state
        bytesWritten := stream.bytesWritten + r.2.bytesWritten }
      if r.2.bytesWritten ≠ size then (.error "submsg size changed", stream)
      else (r.1, stream)
  else (.ok (), { stream with bytesWritten := stream.bytesWritten + size })

/-- The second run fits exactly into the size that the first one found. -/
lemma writes_content (he : Writes e a) : Writes (writeContent e a.length) a where
  counts stream hc := by
    unfold writeContent
    rw [if_neg (by simp [hc])]
    rfl
  room stream hc hroom := by
    have hsub := he.room { stream with maxSize := a.length, bytesWritten := 0 } hc
      (Nat.le_of_eq (Nat.zero_add _))
    unfold writeContent
    rw [if_pos hc, if_neg (Nat.not_lt.mpr hroom), hsub]
    simp [PbOstream.wrote]
  full stream hc h hfull := by
    refine ⟨[], a, rfl, h, ?_⟩
    unfold writeContent
    rw [if_pos hc, if_pos (Nat.lt_of_not_le hfull), wrote_nil]

/-- **A submessage is written with its length.** -/
theorem Writes.submessage (he : Writes e a) (ha : a.length < 2 ^ 64) :
    Writes (pbEncodeSubmessage e) (delimited a) := by
  have hsizing : e pbOstreamSizing = (.ok (), counted pbOstreamSizing a.length) :=
    he.counts pbOstreamSizing rfl
  have heq : pbEncodeSubmessage e =
      PbEncode.andThen (pbEncodeVarint a.length.toUInt64) (writeContent e a.length) := by
    funext stream
    simp only [pbEncodeSubmessage, hsizing]
    simp only [counted, pbOstreamSizing, Nat.zero_add]
    rfl
  rw [heq]
  exact (writes_length ha).andThen (writes_content he)

end

/-! ### The encoder -/

lemma writes_key {wireType tag : ℕ} (hw : wireType < 8) (ht : tag < 2 ^ 29) :
    Writes (pbEncodeTag wireType tag) (key wireType tag) := by
  rw [pbEncodeTag_eq hw (by omega)]
  exact writes_pbWrite _

lemma length_le_delimited (content : List UInt8) : content.length ≤ (delimited content).length := by
  unfold delimited
  rw [List.length_append]
  omega

lemma writes_submessage {tag : ℕ} {e : Encoder} {content : List UInt8} (ht : tag < 2 ^ 29)
    (hsize : (key 2 tag ++ delimited content).length < 2 ^ 32)
    (he : content.length < 2 ^ 32 → Writes e content) :
    Writes (andThen (pbEncodeTag 2 tag) (pbEncodeSubmessage e))
      (key 2 tag ++ delimited content) := by
  have hle := length_le_delimited content
  rw [List.length_append] at hsize
  have hlt : content.length < 2 ^ 32 := by omega
  exact (writes_key (by omega) ht).andThen ((he hlt).submessage (by omega))

mutual

lemma encodeField_writes (field : PbField) (src : PbStruct) (hok : fieldOk field = true)
    (hsize : (fieldWire field src).length < 2 ^ 32) :
    Writes (encodeField field src) (fieldWire field src) := by
  have htag := (tag_of_ok hok).2
  cases field with
  | uint32 tag =>
    simp only [encodeField, fieldWire]
    by_cases h : pbCheckProto3DefaultValue (.uint32 tag) src = true
    · rw [if_pos h, if_pos h]
      exact writes_skip
    · have hvalue : (src.num tag).toUInt64.toNat = (src.num tag).toNat :=
        UInt32.toNat_toUInt64 _
      rw [if_neg h, if_neg h, pbEncodeVarint_eq, hvalue]
      exact (writes_key (by omega) htag).andThen (writes_pbWrite _)
  | message tag fields =>
    simp only [encodeField, fieldWire] at hsize ⊢
    by_cases h : pbCheckProto3DefaultValue (.message tag fields) src = true
    · rw [if_pos h, if_pos h]
      exact writes_skip
    · rw [if_neg h] at hsize ⊢
      rw [if_neg h]
      exact writes_submessage htag hsize fun hlt =>
        encodeFields_writes fields (src.sub tag) (tableOk_message hok).all hlt
  | oneof tag fields =>
    simp only [encodeField, fieldWire] at hsize ⊢
    by_cases h : src.num 0 = tag.toUInt32
    · rw [if_pos h] at hsize ⊢
      rw [if_pos h]
      exact writes_submessage htag hsize fun hlt =>
        encodeFields_writes fields (src.sub tag) (tableOk_oneof hok).all hlt
    · rw [if_neg h, if_neg h]
      exact writes_skip
  | callback tag => exact writes_skip
  | last => exact writes_skip

lemma encodeFields_writes (fields : List PbField) (src : PbStruct)
    (hok : ∀ field ∈ fields, fieldOk field = true) (hsize : (wire fields src).length < 2 ^ 32) :
    Writes (encodeField.encodeFields fields src) (wire fields src) := by
  cases fields with
  | nil => exact writes_skip
  | cons field fields =>
    simp only [wire, fieldWire.wire, List.length_append] at hsize
    have hfield := encodeField_writes field src (hok field (by simp)) (by omega)
    have hrest := encodeFields_writes fields src (fun f hf => hok f (by simp [hf]))
      (by simp only [wire]; omega)
    exact hfield.andThen hrest

end

/-- **`pb_encode` writes the bytes of the struct.** -/
theorem pbEncode_writes {fields : List PbField} (hok : TableOk fields) {src : PbStruct}
    (hsize : (wire fields src).length < 2 ^ 32) :
    Writes (fun stream => pbEncode stream fields src) (wire fields src) :=
  encodeFields_writes fields src hok.all hsize

/-! ### Buffers -/

section
variable {e : Encoder} {bytes : List UInt8} {bufsize : ℕ}

lemma Writes.buffer_room (he : Writes e bytes) (hroom : bytes.length ≤ bufsize) :
    e (pbOstreamFromBuffer bufsize) = (.ok (), (pbOstreamFromBuffer bufsize).wrote bytes) :=
  he.room (pbOstreamFromBuffer bufsize) rfl (by simpa [Room, pbOstreamFromBuffer])

/-- A buffer that the bytes do not fit into takes some of the first ones. -/
lemma Writes.buffer_full (he : Writes e bytes) (hfull : bufsize < bytes.length) :
    ∃ t u, bytes = t ++ u ∧ t.length ≤ bufsize ∧
      e (pbOstreamFromBuffer bufsize) =
        (.error "stream full", (pbOstreamFromBuffer bufsize).wrote t) := by
  obtain ⟨t, u, hsplit, ht, hstop⟩ := he.full (pbOstreamFromBuffer bufsize) rfl
    (by simp [Room, pbOstreamFromBuffer]) (by simpa [Room, pbOstreamFromBuffer] using hfull)
  exact ⟨t, u, hsplit, by simpa [Room, pbOstreamFromBuffer] using ht, hstop⟩

/-- An encoder that succeeds had room in the buffer, and wrote the bytes. -/
lemma Writes.buffer_ok (he : Writes e bytes) {out : PbOstream}
    (h : e (pbOstreamFromBuffer bufsize) = (.ok (), out)) :
    bytes.length ≤ bufsize ∧ out = (pbOstreamFromBuffer bufsize).wrote bytes := by
  by_cases hroom : bytes.length ≤ bufsize
  · rw [he.buffer_room hroom] at h
    exact ⟨hroom, (Prod.mk.inj h).2.symm⟩
  · obtain ⟨t, u, -, -, hstop⟩ := he.buffer_full (Nat.lt_of_not_le hroom)
    rw [hstop] at h
    cases h

end

lemma pbEncode_room {fields : List PbField} (hok : TableOk fields) {src : PbStruct}
    (hsize : (wire fields src).length < 2 ^ 32) {bufsize : ℕ}
    (hroom : (wire fields src).length ≤ bufsize) :
    pbEncode (pbOstreamFromBuffer bufsize) fields src =
      (.ok (), (pbOstreamFromBuffer bufsize).wrote (wire fields src)) :=
  (pbEncode_writes hok hsize).buffer_room hroom

lemma pbEncode_full {fields : List PbField} (hok : TableOk fields) {src : PbStruct}
    (hsize : (wire fields src).length < 2 ^ 32) {bufsize : ℕ}
    (hfull : bufsize < (wire fields src).length) : ∃ t u, wire fields src = t ++ u ∧
      t.length ≤ bufsize ∧ pbEncode (pbOstreamFromBuffer bufsize) fields src =
        (.error "stream full", (pbOstreamFromBuffer bufsize).wrote t) :=
  (pbEncode_writes hok hsize).buffer_full hfull

lemma pbEncode_ok {fields : List PbField} (hok : TableOk fields) {src : PbStruct}
    (hsize : (wire fields src).length < 2 ^ 32) {bufsize : ℕ} {out : PbOstream}
    (h : pbEncode (pbOstreamFromBuffer bufsize) fields src = (.ok (), out)) :
    (wire fields src).length ≤ bufsize ∧
      out = (pbOstreamFromBuffer bufsize).wrote (wire fields src) :=
  (pbEncode_writes hok hsize).buffer_ok h

/-! ### Sizes -/

/-- **The size told is the size written**: `pb_get_encoded_size` tells how many bytes `pb_encode`
needs. A smaller buffer is left with some of the first of them, and no buffer is overrun. -/
theorem encoded_size_exact (fields : List PbField) (hok : TableOk fields) (src : PbStruct)
    (hsize : (wire fields src).length < 2 ^ 32) :
    pbGetEncodedSize fields src = .ok (wire fields src).length ∧ ∀ bufsize : ℕ,
      let r := pbEncode (pbOstreamFromBuffer bufsize) fields src
      r.2.state <+: wire fields src ∧ r.2.bytesWritten = r.2.state.length ∧
        r.2.state.length ≤ bufsize ∧
        ((wire fields src).length ≤ bufsize → r.1 = .ok () ∧ r.2.state = wire fields src) ∧
        (bufsize < (wire fields src).length → r.1 = .error "stream full") := by
  have hwrites := pbEncode_writes hok hsize
  constructor
  · have hsizing : pbEncode pbOstreamSizing fields src =
        (.ok (), counted pbOstreamSizing (wire fields src).length) :=
      hwrites.counts pbOstreamSizing rfl
    unfold pbGetEncodedSize
    rw [hsizing]
    simp [counted, pbOstreamSizing]
  · intro bufsize
    by_cases hroom : (wire fields src).length ≤ bufsize
    · rw [pbEncode_room hok hsize hroom]
      refine ⟨by simp [pbOstreamFromBuffer], by simp [pbOstreamFromBuffer], ?_, fun _ => ?_,
        fun h => absurd hroom (Nat.not_le.mpr h)⟩
      · simpa [pbOstreamFromBuffer] using hroom
      · exact ⟨rfl, by simp [pbOstreamFromBuffer]⟩
    · obtain ⟨t, u, hsplit, ht, hstop⟩ := pbEncode_full hok hsize (Nat.lt_of_not_le hroom)
      rw [hstop]
      refine ⟨?_, by simp [pbOstreamFromBuffer], ?_, fun h => absurd h hroom, fun _ => rfl⟩
      · exact ⟨u, by simpa [pbOstreamFromBuffer] using hsplit.symm⟩
      · simpa [pbOstreamFromBuffer] using ht

/-- A message in a message, into three bytes of the six that it needs. -/
theorem encoded_size_exact_three :
    (pbEncode (pbOstreamFromBuffer 3) [.uint32 1, .message 2 [.uint32 1]]
      ((PbStruct.zero.setNum 1 7).setSub 2 (PbStruct.zero.setNum 1 5))).1 =
        .error "stream full" :=
  ((encoded_size_exact [.uint32 1, .message 2 [.uint32 1]]
    ⟨by decide, by simp [fieldOk, fieldOk.allOk]⟩
    ((PbStruct.zero.setNum 1 7).setSub 2 (PbStruct.zero.setNum 1 5)) (by decide)).2 3).2.2.2.2
      (by decide)

/-! ### Zero bytes -/

/-- The field has an empty submessage in it that is written all the same. -/
def fieldHollow : PbField → PbStruct → Bool
  | .message tag fields, src =>
    !pbCheckProto3DefaultValue (.message tag fields) src &&
      ((fieldWire.wire fields (src.sub tag)).isEmpty || hollow fields (src.sub tag))
  | .oneof tag fields, src =>
    decide (src.num 0 = tag.toUInt32) &&
      ((fieldWire.wire fields (src.sub tag)).isEmpty || hollow fields (src.sub tag))
  | .uint32 _, _ | .callback _, _ | .last, _ => false
where
  hollow : List PbField → PbStruct → Bool
    | [], _ => false
    | field :: fields, src => fieldHollow field src || hollow fields src

abbrev Hollow (fields : List PbField) (src : PbStruct) : Prop :=
  fieldHollow.hollow fields src = true

lemma zero_notMem_key {wireType tag : ℕ} (ht : 0 < tag) : 0 ∉ key wireType tag :=
  zero_notMem_varint (by omega)

lemma zero_mem_delimited {content : List UInt8} :
    0 ∈ delimited content ↔ content = [] ∨ 0 ∈ content := by
  unfold delimited
  rw [List.mem_append]
  by_cases hnil : content = []
  · subst hnil
    exact iff_of_true (Or.inl List.mem_cons_self) (Or.inl rfl)
  · have hlen : content.length ≠ 0 := fun h => hnil (List.eq_nil_of_length_eq_zero h)
    simp [hnil, zero_notMem_varint hlen]

lemma zero_mem_submessage {tag : ℕ} (ht : 0 < tag) {content : List UInt8} {inner : Bool}
    (h : 0 ∈ content ↔ inner = true) :
    0 ∈ key 2 tag ++ delimited content ↔ (content.isEmpty || inner) = true := by
  rw [List.mem_append, zero_mem_delimited, h, Bool.or_eq_true, List.isEmpty_iff]
  simp [zero_notMem_key ht]

mutual

lemma zero_mem_fieldWire (field : PbField) (src : PbStruct) (hok : fieldOk field = true) :
    0 ∈ fieldWire field src ↔ fieldHollow field src = true := by
  have htag := (tag_of_ok hok).1
  cases field with
  | uint32 tag =>
    simp only [fieldWire, fieldHollow]
    by_cases h : pbCheckProto3DefaultValue (.uint32 tag) src = true
    · simp [h]
    · have hne : (src.num tag).toNat ≠ 0 := by
        intro h0
        apply h
        simpa [pbCheckProto3DefaultValue, ← UInt32.toNat_inj] using h0
      have hkey : 0 ∉ key 0 tag := zero_notMem_key htag
      rw [if_neg h, List.mem_append]
      simp [hkey, zero_notMem_varint hne]
  | message tag fields =>
    have ht : 0 < tag := htag
    have hcontent : 0 ∈ fieldWire.wire fields (src.sub tag) ↔
        fieldHollow.hollow fields (src.sub tag) = true :=
      zero_mem_wire fields (src.sub tag) (tableOk_message hok).all
    simp only [fieldWire, fieldHollow]
    by_cases h : pbCheckProto3DefaultValue (.message tag fields) src = true
    · simp [h]
    · rw [if_neg h, zero_mem_submessage ht hcontent]
      simp [h]
  | oneof tag fields =>
    have ht : 0 < tag := htag
    have hcontent : 0 ∈ fieldWire.wire fields (src.sub tag) ↔
        fieldHollow.hollow fields (src.sub tag) = true :=
      zero_mem_wire fields (src.sub tag) (tableOk_oneof hok).all
    simp only [fieldWire, fieldHollow]
    by_cases h : src.num 0 = tag.toUInt32
    · rw [if_pos h, zero_mem_submessage ht hcontent]
      simp [h]
    · simp [h]
  | callback tag => simp [fieldWire, fieldHollow]
  | last => simp [fieldWire, fieldHollow]

lemma zero_mem_wire (fields : List PbField) (src : PbStruct)
    (hok : ∀ field ∈ fields, fieldOk field = true) : 0 ∈ wire fields src ↔ Hollow fields src := by
  cases fields with
  | nil => simp [fieldWire.wire, fieldHollow.hollow]
  | cons field fields =>
    have hfield := zero_mem_fieldWire field src (hok field (by simp))
    have hrest := zero_mem_wire fields src fun f hf => hok f (by simp [hf])
    simp only [wire, fieldWire.wire, List.mem_append, Hollow, fieldHollow.hollow, Bool.or_eq_true]
    exact or_congr hfield hrest

end

/-- **What has a zero byte in it**: in what `pb_encode` writes there is one if and only if an empty
submessage is written somewhere. A request is cut off at such a byte. -/
theorem zero_byte_iff (fields : List PbField) (hok : TableOk fields) (src : PbStruct)
    (hsize : (wire fields src).length < 2 ^ 32) (bufsize : ℕ) (out : PbOstream)
    (h : pbEncode (pbOstreamFromBuffer bufsize) fields src = (.ok (), out)) :
    0 ∈ out.state ↔ Hollow fields src := by
  obtain ⟨-, rfl⟩ := pbEncode_ok hok hsize h
  have hstate : ((pbOstreamFromBuffer bufsize).wrote (wire fields src)).state =
      wire fields src := List.nil_append _
  rw [hstate]
  exact zero_mem_wire fields src hok.all

/-- A member with nothing in it is written, in a message that is written for its sake. -/
theorem zero_byte_iff_member :
    0 ∈ (pbEncode (pbOstreamFromBuffer 8) [.message 2 [.oneof 1 []]]
      (PbStruct.zero.setSub 2 (PbStruct.zero.setNum 0 1))).2.state :=
  (zero_byte_iff [.message 2 [.oneof 1 []]] ⟨by decide, by simp [fieldOk, fieldOk.allOk]⟩
    (PbStruct.zero.setSub 2 (PbStruct.zero.setNum 0 1)) (by decide) 8 _ rfl).mpr (by decide)

end RoombaBrain.PbWire
