import RoombaBrain.PbDecodeMemory

/-!
The encoder on memory.

`pb_encode` reads the members at their addresses. Of a oneof it reads the member that `which_`
tells, so that the bytes of a memory that holds a struct are those of the struct.
-/

namespace RoombaBrain.PbEncodeMemory

open RoombaBrain.Memory RoombaBrain.PbDecode RoombaBrain.PbEncode RoombaBrain.PbWire
  RoombaBrain.PbSame RoombaBrain.PbIter RoombaBrain.PbStructs RoombaBrain.PbDecodeMemory

/-! ### Encoders that read memory -/

/-- The status of an encoder and the stream it leaves. There is none when a callback is called. -/
abbrev MemEncoder := PbOstream → Option (Except String Unit × PbOstream)

def plain (e : Encoder) : MemEncoder := fun stream => some (e stream)

def andThenMem (f g : MemEncoder) : MemEncoder := fun stream =>
  match f stream with
  | none => none
  | some (.error e, stream) => some (.error e, stream)
  | some (.ok (), stream) => g stream

/-- `pb_encode_submessage` -/
def pbEncodeSubmessageMem (encode : MemEncoder) : MemEncoder := fun stream =>
  match encode pbOstreamSizing with
  | none => none
  | some (.error e, _) => some (.error e, stream)
  | some (.ok (), sizing) =>
    let size := sizing.bytesWritten
    andThenMem (plain (pbEncodeVarint size.toUInt64)) (fun stream =>
      if stream.callback then
        if stream.maxSize < stream.bytesWritten + size then some (.error "stream full", stream)
        else
          match encode { stream with maxSize := size, bytesWritten := 0 } with
          | none => none
          | some r =>
            let stream := { stream with
              state := r.2.state
              bytesWritten := stream.bytesWritten + r.2.bytesWritten }
            if r.2.bytesWritten ≠ size then some (.error "submsg size changed", stream)
            else some (r.1, stream)
      else some (.ok (), { stream with bytesWritten := stream.bytesWritten + size })) stream

lemma andThenMem_plain (f g : Encoder) : andThenMem (plain f) (plain g) = plain (andThen f g) := by
  ext1 stream
  unfold andThenMem plain andThen
  rcases f stream with ⟨e | u, stream'⟩
  · rfl
  · rfl

lemma pbEncodeSubmessageMem_plain (e : Encoder) :
    pbEncodeSubmessageMem (plain e) = plain (pbEncodeSubmessage e) := by
  ext1 stream
  unfold pbEncodeSubmessageMem plain pbEncodeSubmessage
  rcases e pbOstreamSizing with ⟨text | u, sizing⟩
  · rfl
  · simp only
    unfold andThenMem andThen
    simp only
    rcases pbEncodeVarint sizing.bytesWritten.toUInt64 stream with ⟨text | u, stream'⟩
    · rfl
    · simp only
      split_ifs <;> rfl

/-! ### Encoding -/

variable {t : Target} (s : Structs t) (mem : Mem)

def isZero (a n : ℕ) : Bool := (List.range n).all fun i => mem (a + i) = 0

/-- `pData + field->size_offset`, where the encoder looks for a counter or `which_` -/
def pSizeOf (iter : PbFieldIter) : ℕ :=
  (iter.pData + (fieldAt iter.start iter.pos).sizeOffset).toNat

/-- `pb_check_proto3_default_value` of the entry that the iterator is at. Of a repeated callback,
which has no counter, it takes the first bytes for one. -/
def pbCheckProto3DefaultValueMem : PbField → PbFieldIter → Bool
  | .uint32 _, iter => isZero mem iter.pData (fieldAt iter.start iter.pos).dataSize
  | .callback _, iter =>
    if (fieldAt iter.start iter.pos).htype = .repeated then load mem (pSizeOf iter) t.sizeBytes = 0
    else isZero mem iter.pData (fieldAt iter.start iter.pos).dataSize
  | .message _ fields, iter =>
    match pbFieldIterBegin (s.layout fields).table iter.pData with
    | (false, _) => true
    | (true, iter) => allDefault fields iter
  | .oneof _ _, iter => load mem (pSizeOf iter) t.sizeBytes = 0
  | .last, _ => true
where
  allDefault : List PbField → PbFieldIter → Bool
    | [], _ => true
    | field :: fields, iter =>
      if pbCheckProto3DefaultValueMem field iter then
        match pbFieldIterNext t iter with
        | (true, iter) => allDefault fields iter
        | (false, _) => true
      else false

/-- `encode_field` of the entry that the iterator is at -/
def encodeFieldMem : PbField → PbFieldIter → MemEncoder
  | .uint32 tag, iter =>
    if pbCheckProto3DefaultValueMem s mem (.uint32 tag) iter then plain skip
    else andThenMem (plain (pbEncodeTagForField (.uint32 tag)))
      (plain (pbEncodeVarint (load mem iter.pData 4).toUInt64))
  | .message tag fields, iter =>
    if pbCheckProto3DefaultValueMem s mem (.message tag fields) iter then plain skip
    else andThenMem (plain (pbEncodeTagForField (.message tag fields)))
      (pbEncodeSubmessageMem
        (match pbFieldIterBegin (s.layout fields).table iter.pData with
        | (false, _) => plain skip
        | (true, iter) => encodeFields fields iter))
  | .oneof tag fields, iter =>
    if load mem (pSizeOf iter) t.sizeBytes = tag then
      andThenMem (plain (pbEncodeTagForField (.oneof tag fields)))
        (pbEncodeSubmessageMem
          (match pbFieldIterBegin (s.layout fields).table iter.pData with
          | (false, _) => plain skip
          | (true, iter) => encodeFields fields iter))
    else plain skip
  | .callback _, iter =>
    if load mem iter.pData t.ptrSize = 0 then plain skip else fun _ => none
  | .last, _ => plain skip
where
  /-- the loop of `pb_encode` -/
  encodeFields : List PbField → PbFieldIter → MemEncoder
    | [], _ => plain skip
    | field :: fields, iter =>
      andThenMem (encodeFieldMem field iter)
        (match pbFieldIterNext t iter with
        | (true, iter) => encodeFields fields iter
        | (false, _) => plain skip)

/-- `pb_encode` of the struct at an address -/
def pbEncodeMem (fields : List PbField) (srcStruct : ℕ) : MemEncoder :=
  match pbFieldIterBegin (s.layout fields).table srcStruct with
  | (false, _) => plain skip
  | (true, iter) => encodeFieldMem.encodeFields s mem fields iter

/-! ### What is read -/

variable {s mem} {fields rest : List PbField} {a : ℕ} {iter : PbFieldIter} {src : PbStruct}

lemma isZero_eq (a n : ℕ) : isZero mem a n = decide (load mem a n = 0) := by
  unfold isZero
  rw [Bool.eq_iff_iff, decide_eq_true_iff, load_eq_zero_iff]
  simp

lemma toNat_eq_zero (x : UInt32) : x.toNat = 0 ↔ x = 0 := UInt32.toNat_inj (b := 0)

lemma toUInt64_toNat (x : UInt32) : x.toNat.toUInt64 = x.toUInt64 := by
  have hlt : x.toNat < 2 ^ 32 := x.toNat_lt
  rw [← UInt64.toNat_inj, Nat.toUInt64, UInt64.toNat_ofNat', UInt32.toNat_toUInt64]
  omega

lemma pSizeOf_eq (h : Points (s.layout fields) a iter) {m : Member}
    (hm : (s.layout fields).members[iter.pos]? = some m) :
    pSizeOf iter = (a + m.offset + m.distance : ℤ).toNat := by
  obtain ⟨b, hfield⟩ := fieldAt_some (s.layout fields) hm
  unfold pSizeOf
  rw [h.start, hfield, h.data m hm]
  push_cast
  rfl

/-- Each field is read from a memory as it is in the struct that the memory holds. -/
def Reading {α : Type} (s : Structs t) (mem : Mem) (readMem : PbField → PbFieldIter → α)
    (read : PbField → PbStruct → α) (field : PbField) : Prop :=
  ∀ (fields : List PbField) (a : ℕ) (iter : PbFieldIter) (src : PbStruct), AllLaidOut s fields →
    TableOk fields → Points (s.layout fields) a iter → fields[iter.pos]? = some field →
      Holds s fields a mem src → readMem field iter = read field src

lemma allDefault_eq (hall : ∀ field ∈ fields,
      Reading s mem (pbCheckProto3DefaultValueMem s mem) pbCheckProto3DefaultValue field)
    (hlaid : AllLaidOut s fields) (hok : TableOk fields) (hwalk : Before s fields a iter rest)
    (h : Holds s fields a mem src) :
    pbCheckProto3DefaultValueMem.allDefault s mem rest iter =
      pbCheckProto3DefaultValue.allDefault rest src := by
  induction rest generalizing iter with
  | nil => rfl
  | cons field rest ih =>
    have hfield := hwalk.head
    have hread := hall field (List.mem_of_getElem? hfield) fields a iter src hlaid hok
      hwalk.points hfield h
    have hnext := hwalk.next hlaid.laidOut
    unfold pbCheckProto3DefaultValueMem.allDefault pbCheckProto3DefaultValue.allDefault
    rw [hread]
    rcases pbCheckProto3DefaultValue field src with _ | _
    · rfl
    · rcases hr : pbFieldIterNext t iter with ⟨more, iter'⟩
      rw [hr] at hnext
      rcases hnext with ⟨rfl, rfl⟩ | ⟨rfl, hwalk'⟩
      · rfl
      · exact ih hwalk'

lemma check_message (hall : ∀ field ∈ fields,
      Reading s mem (pbCheckProto3DefaultValueMem s mem) pbCheckProto3DefaultValue field)
    (hlaid : AllLaidOut s fields) (hok : TableOk fields) (h : Holds s fields a mem src) :
    (match pbFieldIterBegin (s.layout fields).table a with
      | (false, _) => true
      | (true, iter) => pbCheckProto3DefaultValueMem.allDefault s mem fields iter) =
        pbCheckProto3DefaultValue.allDefault fields src := by
  have hbegin := begin_walk hlaid.laidOut a
  rcases hr : pbFieldIterBegin (s.layout fields).table a with ⟨more, iter⟩
  rw [hr] at hbegin
  rcases hbegin with ⟨rfl, rfl⟩ | ⟨rfl, hwalk⟩
  · rfl
  · exact allDefault_eq hall hlaid hok hwalk h

lemma check_eq (s : Structs t) (mem : Mem) (field : PbField) :
    Reading s mem (pbCheckProto3DefaultValueMem s mem) pbCheckProto3DefaultValue field := by
  induction field using fieldInduction with
  | uint32 tag =>
    intro fields a iter src hlaid hok hpoints hf h
    obtain ⟨m, hm⟩ := hlaid.laidOut.exists_member hf
    obtain ⟨-, -, -, -, hsize⟩ := hlaid.laidOut.memberFor hf hm
    have hload : load mem (a + m.offset) 4 = (src.num tag).toNat := holds_iff.mp h _ _ m hf hm
    unfold pbCheckProto3DefaultValueMem pbCheckProto3DefaultValue
    rw [hpoints.data m hm, dataSize_eq hpoints.stands hm, hsize, isZero_eq, hload]
    exact decide_eq_decide.mpr (toNat_eq_zero _)
  | message tag entries ih =>
    intro fields a iter src hlaid hok hpoints hf h
    obtain ⟨m, hm⟩ := hlaid.laidOut.exists_member hf
    have hmem := List.mem_of_getElem? hf
    have hsub : Holds s entries (a + m.offset) mem (src.sub tag) := holds_iff.mp h _ _ m hf hm
    unfold pbCheckProto3DefaultValueMem pbCheckProto3DefaultValue
    rw [hpoints.data m hm]
    exact check_message ih (hlaid.message hmem) (tableOk_message (hok.all _ hmem)) hsub
  | oneof tag entries _ =>
    intro fields a iter src hlaid hok hpoints hf h
    obtain ⟨m, hm⟩ := hlaid.laidOut.exists_member hf
    obtain ⟨hload, -⟩ := holds_iff.mp h _ _ m hf hm
    unfold pbCheckProto3DefaultValueMem pbCheckProto3DefaultValue
    rw [pSizeOf_eq hpoints hm, hload]
    exact decide_eq_decide.mpr (toNat_eq_zero _)
  | callback tag =>
    intro fields a iter src hlaid hok hpoints hf h
    obtain ⟨m, hm⟩ := hlaid.laidOut.exists_member hf
    have hload : load mem (a + m.offset) m.itemSize = 0 := holds_iff.mp h _ _ m hf hm
    obtain ⟨-, -, htype, hdistance, -⟩ := hlaid.laidOut.memberFor hf hm
    obtain ⟨b, hfield⟩ := fieldAt_some (s.layout fields) hm
    have hentry : (fieldAt iter.start iter.pos).htype = m.htype := by
      rw [hpoints.start, hfield]
      rfl
    unfold pbCheckProto3DefaultValueMem pbCheckProto3DefaultValue
    rw [hentry]
    rcases htype with htype | ⟨htype, -, hcount⟩
    · rw [htype, if_neg (by decide), hpoints.data m hm, dataSize_eq hpoints.stands hm, isZero_eq,
        hload]
      rfl
    · have haddress : (a + m.offset + m.distance : ℤ).toNat = a + m.offset := by omega
      rw [htype, if_pos rfl, pSizeOf_eq hpoints hm, haddress, load_eq_zero hcount hload]
      rfl
  | last => exact fun _ _ _ _ _ _ _ _ _ => rfl

def plainField (field : PbField) (src : PbStruct) : MemEncoder := plain (encodeField field src)

lemma encodeFields_eq
    (hall : ∀ field ∈ fields, Reading s mem (encodeFieldMem s mem) plainField field)
    (hlaid : AllLaidOut s fields) (hok : TableOk fields) (hwalk : Before s fields a iter rest)
    (h : Holds s fields a mem src) : encodeFieldMem.encodeFields s mem rest iter =
      plain (encodeField.encodeFields rest src) := by
  induction rest generalizing iter with
  | nil => rfl
  | cons field rest ih =>
    have hfield := hwalk.head
    have hread := hall field (List.mem_of_getElem? hfield) fields a iter src hlaid hok
      hwalk.points hfield h
    have hnext := hwalk.next hlaid.laidOut
    unfold encodeFieldMem.encodeFields encodeField.encodeFields
    rw [hread, ← andThenMem_plain]
    congr 1
    rcases hr : pbFieldIterNext t iter with ⟨more, iter'⟩
    rw [hr] at hnext
    rcases hnext with ⟨rfl, rfl⟩ | ⟨rfl, hwalk'⟩
    · rfl
    · exact ih hwalk'

lemma encode_message
    (hall : ∀ field ∈ fields, Reading s mem (encodeFieldMem s mem) plainField field)
    (hlaid : AllLaidOut s fields) (hok : TableOk fields) (h : Holds s fields a mem src) :
    pbEncodeMem s mem fields a = plain (encodeField.encodeFields fields src) := by
  have hbegin := begin_walk hlaid.laidOut a
  unfold pbEncodeMem
  rcases hr : pbFieldIterBegin (s.layout fields).table a with ⟨more, iter⟩
  rw [hr] at hbegin
  rcases hbegin with ⟨rfl, rfl⟩ | ⟨rfl, hwalk⟩
  · rfl
  · exact encodeFields_eq hall hlaid hok hwalk h

lemma encodeField_eq (s : Structs t) (mem : Mem) (field : PbField) :
    Reading s mem (encodeFieldMem s mem) plainField field := by
  induction field using fieldInduction with
  | uint32 tag =>
    intro fields a iter src hlaid hok hpoints hf h
    obtain ⟨m, hm⟩ := hlaid.laidOut.exists_member hf
    have hcheck := check_eq s mem (.uint32 tag) fields a iter src hlaid hok hpoints hf h
    have hload : load mem (a + m.offset) 4 = (src.num tag).toNat := holds_iff.mp h _ _ m hf hm
    unfold encodeFieldMem plainField encodeField
    rw [hcheck, hpoints.data m hm, hload, toUInt64_toNat, andThenMem_plain]
    split_ifs <;> rfl
  | message tag entries ih =>
    intro fields a iter src hlaid hok hpoints hf h
    obtain ⟨m, hm⟩ := hlaid.laidOut.exists_member hf
    have hmem := List.mem_of_getElem? hf
    have hcheck := check_eq s mem (.message tag entries) fields a iter src hlaid hok hpoints hf h
    have hsub : Holds s entries (a + m.offset) mem (src.sub tag) := holds_iff.mp h _ _ m hf hm
    have hentries := encode_message ih (hlaid.message hmem) (tableOk_message (hok.all _ hmem)) hsub
    unfold pbEncodeMem at hentries
    unfold encodeFieldMem plainField encodeField
    rw [hcheck, hpoints.data m hm, hentries, pbEncodeSubmessageMem_plain, andThenMem_plain]
    split_ifs <;> rfl
  | oneof tag entries ih =>
    intro fields a iter src hlaid hok hpoints hf h
    obtain ⟨m, hm⟩ := hlaid.laidOut.exists_member hf
    have hmem := List.mem_of_getElem? hf
    obtain ⟨hload, hsub⟩ := holds_iff.mp h _ _ m hf hm
    have hlt : tag < 2 ^ 29 := (tag_of_ok (hok.all _ hmem)).2
    have hsel : (src.num 0).toNat = tag ↔ src.num 0 = tag.toUInt32 := by
      rw [← UInt32.toNat_inj]
      simp only [Nat.toUInt32, UInt32.toNat_ofNat']
      omega
    unfold encodeFieldMem plainField encodeField
    rw [pSizeOf_eq hpoints hm, hload, hpoints.data m hm]
    by_cases hselected : src.num 0 = tag.toUInt32
    · have hentries := encode_message ih (hlaid.oneof hmem) (tableOk_oneof (hok.all _ hmem))
        (hsub hselected)
      unfold pbEncodeMem at hentries
      rw [if_pos (hsel.mpr hselected), if_pos hselected, hentries, pbEncodeSubmessageMem_plain,
        andThenMem_plain]
    · rw [if_neg (mt hsel.mp hselected), if_neg hselected]
  | callback tag =>
    intro fields a iter src hlaid hok hpoints hf h
    obtain ⟨m, hm⟩ := hlaid.laidOut.exists_member hf
    obtain ⟨-, -, -, -, hsize⟩ := hlaid.laidOut.memberFor hf hm
    have hnull : load mem (a + m.offset) t.ptrSize = 0 :=
      load_eq_zero hsize (holds_iff.mp h _ _ m hf hm)
    unfold encodeFieldMem
    rw [hpoints.data m hm, if_pos hnull]
    rfl
  | last => exact fun _ _ _ _ _ _ _ _ _ => rfl

/-- **What is encoded is what the memory holds**: `pb_encode` writes of a struct in memory the bytes
of the struct, however the members of the oneofs lie over each other, and calls no callback. -/
theorem encode_memory (s : Structs t) (fields : List PbField) (hlaid : AllLaidOut s fields)
    (hok : TableOk fields) (a : ℕ) (mem : Mem) (src : PbStruct) (h : Holds s fields a mem src)
    (stream : PbOstream) :
    pbEncodeMem s mem fields a stream = some (pbEncode stream fields src) :=
  congrFun (encode_message (fun field _ => encodeField_eq s mem field) hlaid hok h) stream

def unionBytes : Mem :=
  store (store (store (zero (fun _ => 0xFF) 4096 16) 4096 4 7) 4100 1 2) 4104 4 300

/-- The other member of the union is not written. -/
theorem encode_memory_union : pbEncodeMem unionStructs unionBytes unionFields 4096
    (pbOstreamFromBuffer 8) = some (.ok (), ⟨true, [8, 7, 0x12, 3, 8, 0xAC, 2], 8, 7⟩) := by
  have hok : TableOk unionFields :=
    ⟨by decide, by simp [unionFields, fieldOk, fieldOk.allOk, PbField.tag]⟩
  have hnumber : load unionBytes 4096 4 = 7 := by decide
  have hwhich : load unionBytes 4100 1 = 2 := by decide
  have hfirst : load unionBytes 4104 4 = 300 := by decide
  have hsecond : load unionBytes 4108 4 = 0 := by decide
  have hencode := encode_memory unionStructs unionFields unionStructs_laidOut hok 4096 unionBytes
    (((PbStruct.zero.setNum 1 7).setNum 0 2).setSub 2 (PbStruct.zero.setNum 1 300))
    ⟨hnumber, ⟨hwhich, fun _ => ⟨hfirst, hsecond, trivial⟩⟩,
      ⟨hwhich, fun hsel => absurd hsel (by decide)⟩, trivial⟩ (pbOstreamFromBuffer 8)
  rw [hencode]
  rfl

end RoombaBrain.PbEncodeMemory
