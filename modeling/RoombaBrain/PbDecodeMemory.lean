import RoombaBrain.PbIterDecode
import RoombaBrain.PbStructs

/-!
The decoder on memory.

`pb_decode` stores at the addresses of the members what it decodes. A oneof is entered over whatever
its other members have left there: `which_` is stored, and the bytes are set to zero before anything
is decoded into them. So no callback is ever found set, and the memory always holds the struct that
was decoded.
-/

namespace RoombaBrain.PbDecodeMemory

open RoombaBrain.ByteReader RoombaBrain.Memory RoombaBrain.PbStream RoombaBrain.PbDecode
  RoombaBrain.PbWire RoombaBrain.PbSame RoombaBrain.PbIter RoombaBrain.PbIterDecode
  RoombaBrain.PbStructs

variable {t : Target} (s : Structs t)

/-! ### Defaults -/

/-- `pb_field_set_to_default` of the entry that the iterator is at -/
def pbFieldSetToDefaultMem : PbField → PbFieldIter → Mem → Mem
  | .uint32 _, iter, mem => zero mem iter.pData (fieldAt iter.start iter.pos).dataSize
  | .message _ fields, iter, mem =>
    match pbFieldIterBegin (s.layout fields).table iter.pData with
    | (false, _) => mem
    | (true, iter) => defaults fields iter mem
  | .oneof _ _, iter, mem => store mem iter.pSize.toNat t.sizeBytes 0
  | .callback _, _, mem | .last, _, mem => mem
where
  /-- the loop of `pb_message_set_to_defaults` -/
  defaults : List PbField → PbFieldIter → Mem → Mem
    | [], _, mem => mem
    | field :: fields, iter, mem =>
      let mem := pbFieldSetToDefaultMem field iter mem
      match pbFieldIterNext t iter with
      | (true, iter) => defaults fields iter mem
      | (false, _) => mem

/-- `pb_message_set_to_defaults` of the struct at an address -/
def pbMessageSetToDefaultsMem (fields : List PbField) (destStruct : ℕ) (mem : Mem) : Mem :=
  match pbFieldIterBegin (s.layout fields).table destStruct with
  | (false, _) => mem
  | (true, iter) => pbFieldSetToDefaultMem.defaults s fields iter mem

/-! ### Decoding -/

/-- The memory, and the stream or the error that stopped decoding. There is none when a callback is
called. -/
abbrev DecodedMem := Option (Mem × Except String PbIstream)

abbrev MemDecoder := Mem → PbIstream → DecodedMem

/-- `pb_dec_uvarint` for a field of four bytes -/
def pbDecUvarintMem (dest : ℕ) : MemDecoder := fun mem stream =>
  match pbDecodeVarint stream with
  | .error e => some (mem, .error e)
  | .ok (value, stream) =>
    let clamped := value.toUInt32
    some (store mem dest 4 clamped.toNat,
      if clamped.toUInt64 ≠ value then .error "integer too large" else .ok stream)

/-- `pb_dec_varint` on the end marker -/
def pbDecVarintMem : MemDecoder := fun mem stream =>
  match pbDecodeVarint stream with
  | .error e => some (mem, .error e)
  | .ok _ => some (mem, .error "invalid data_size")

/-- `pb_dec_submessage` -/
def pbDecSubmessageMem (noinit : MemDecoder) : MemDecoder := fun mem stream =>
  match pbMakeStringSubstream stream with
  | .error e => some (mem, .error e)
  | .ok (substream, stream) =>
    match noinit mem substream with
    | none => none
    | some (mem, .error e) => some (mem, .error e)
    | some (mem, .ok substream) => some (mem, pbCloseStringSubstream stream substream)

/-- `decode_static_field` -/
def decodeStaticFieldMem (noinit : List PbField → ℕ → MemDecoder) (field : PbField)
    (iter : PbFieldIter) : MemDecoder := fun mem stream =>
  match field with
  | .uint32 _ => pbDecUvarintMem iter.pData mem stream
  | .message _ fields => pbDecSubmessageMem (noinit fields iter.pData) mem stream
  | .oneof tag fields =>
    let mem := store mem iter.pSize.toNat t.sizeBytes tag
    let mem := zero mem iter.pData (fieldAt iter.start iter.pos).dataSize
    let mem := pbMessageSetToDefaultsMem s fields iter.pData mem
    pbDecSubmessageMem (noinit fields iter.pData) mem stream
  | .callback _ => some (mem, .error "invalid field type")
  | .last => pbDecVarintMem mem stream

variable (t) in
/-- `decode_callback_field`: the callback is looked up in memory. -/
def decodeCallbackFieldMem (wireType : ℕ) (iter : PbFieldIter) : MemDecoder := fun mem stream =>
  if iter.pData = 0 ∨ load mem iter.pData t.ptrSize = 0 then
    match pbSkipField wireType stream with
    | .error e => some (mem, .error e)
    | .ok (_, stream) => some (mem, .ok stream)
  else none

/-- `decode_field` -/
def decodeFieldMem (noinit : List PbField → ℕ → MemDecoder) (wireType : ℕ) (field : PbField)
    (iter : PbFieldIter) : MemDecoder := fun mem stream =>
  match field with
  | .callback _ => decodeCallbackFieldMem t wireType iter mem stream
  | field => decodeStaticFieldMem s noinit field iter mem stream

/-- The loop of `pb_decode_noinit`, with its locals. `countAt` tells where the `fixed_count_size` of
each nested call is. -/
def noinitLoopMem (countAt : ℕ → ℕ) : ℕ → ℕ → List PbField → Locals → MemDecoder
  | 0, _, _, _, mem, _ => some (mem, .error "out of fuel")
  | fuel + 1, depth, fields, v, mem, stream =>
    if stream.bytesLeft = 0 then some (mem, v.finish stream)
    else match pbDecodeTag stream with
      | .error e => some (mem, .error e)
      | .ok (none, stream) => some (mem, v.finish stream)
      | .ok (some (wireType, tag), stream) =>
        match PbIter.pbFieldIterFind t v.iter tag with
        | none => some (mem, .error "out of fuel")
        | some (false, iter) =>
          match if v.extensionRangeStart ≤ tag then findExtensionField t iter
            else some (false, iter) with
          | none => some (mem, .error "out of fuel")
          | some (_, iter) =>
            let v := { v with
              iter := iter
              extensionRangeStart :=
                if v.extensionRangeStart ≤ tag then 2 ^ 32 - 1 else v.extensionRangeStart }
            match pbSkipField wireType stream with
            | .error e => some (mem, .error e)
            | .ok (_, stream) => noinitLoopMem countAt fuel depth fields v mem stream
        | some (true, iter) =>
          match Locals.fixedCount (countAt depth) { v with iter := iter } with
          | .error e => some (mem, .error e)
          | .ok v =>
            let noinit := fun fields dest => noinitLoopMem countAt fuel (depth + 1) fields
              (.start (s.layout fields).table dest)
            match decodeFieldMem s noinit wireType (fields.getD v.iter.pos .last) v.iter mem
              stream with
            | none => none
            | some (mem, .error e) => some (mem, .error e)
            | some (mem, .ok stream) => noinitLoopMem countAt fuel depth fields v mem stream

/-- `pb_decode_noinit` -/
def pbDecodeNoinitMem (countAt : ℕ → ℕ) (fields : List PbField) (destStruct : ℕ) : MemDecoder :=
  fun mem stream => noinitLoopMem s countAt (stream.bytesLeft + 1) 0 fields
    (.start (s.layout fields).table destStruct) mem stream

/-- `pb_decode` -/
def pbDecodeMem (countAt : ℕ → ℕ) (stream : PbIstream) (fields : List PbField) (destStruct : ℕ)
    (mem : Mem) : DecodedMem :=
  pbDecodeNoinitMem s countAt fields destStruct (pbMessageSetToDefaultsMem s fields destStruct mem)
    stream

/-! ### Steps -/

variable {s} {fields : List PbField} {a : ℕ} {iter : PbFieldIter} {mem mem' mem'' : Mem}
  {d d' d'' : PbStruct} {m : Member}

variable (s) in
/-- The memory goes along with the struct, and nothing outside the struct is changed. -/
structure Along (fields : List PbField) (a : ℕ) (mem mem' : Mem) (d' : PbStruct) : Prop where
  holds : Holds s fields a mem' d'
  within : Within a (s.sizeof fields) mem mem'

lemma Along.trans (h : Within a (s.sizeof fields) mem mem') (h' : Along s fields a mem' mem'' d) :
    Along s fields a mem mem'' d := ⟨h'.holds, h.trans h'.within⟩

section
variable (hlaid : AllLaidOut s fields) (hok : TableOk fields) (h : Holds s fields a mem d)
  {i : ℕ} (hm : (s.layout fields).members[i]? = some m)

include hlaid hok h hm

lemma along_number {tag : ℕ} {v : UInt32} (hf : fields[i]? = some (.uint32 tag))
    (hmem : Within (a + m.offset) 4 mem mem') (hload : load mem' (a + m.offset) 4 = v.toNat) :
    Along s fields a mem mem' (d.setNum tag v) := by
  obtain ⟨-, -, htype, -, hsize⟩ := hlaid.laidOut.memberFor hf hm
  have hinside := hlaid.laidOut.inside m (List.mem_of_getElem? hm)
  refine ⟨h.update hlaid hok hf hm (by simp [htype]) (by rwa [hsize]) (fun k hk => ?_) ?_,
    hmem.mono (by omega) (by omega)⟩
  · have hk : k ≠ tag := hk
    simp [hk]
  · simpa [fieldHolds] using hload

lemma along_message {tag : ℕ} {entries : List PbField} {sub : PbStruct}
    (hf : fields[i]? = some (.message tag entries))
    (hsub : Along s entries (a + m.offset) mem mem' sub) :
    Along s fields a mem mem' (d.setSub tag sub) := by
  obtain ⟨-, -, htype, -, hsize⟩ := hlaid.laidOut.memberFor hf hm
  have hinside := hlaid.laidOut.inside m (List.mem_of_getElem? hm)
  have hmem : Within (a + m.offset) m.itemSize mem mem' := by
    rw [hsize]
    exact hsub.within
  refine ⟨h.update hlaid hok hf hm (by simp [htype]) hmem (fun k hk => ?_) ?_,
    hmem.mono (by omega) (by omega)⟩
  · have hk : k ≠ tag := hk
    simp [hk]
  · simpa [fieldHolds, Holds] using hsub.holds

lemma along_unselect {tag : ℕ} {entries : List PbField}
    (hf : fields[i]? = some (.oneof tag entries)) :
    Along s fields a mem (store mem (a + s.which fields) t.sizeBytes 0) (d.setNum 0 0) := by
  have hfor := hlaid.laidOut.memberFor hf hm
  obtain ⟨-, hinside, hapart⟩ := hlaid.laidOut.which m (List.mem_of_getElem? hm) hfor.2.2.1
  have hmem := store_within mem (a + s.which fields) t.sizeBytes 0
  refine ⟨h.select hlaid (fun n hn _ => hmem.agree (Apart.shift (hapart n hn) a)) ?_
    (fun field hfield _ => ?_) (fun j tag' entries' n hf' _ hsel => ?_),
    hmem.mono (by omega) (by omega)⟩
  · have hlt : 0 < 256 ^ t.sizeBytes := Nat.pow_pos (Nat.zero_lt_succ 255)
    exact load_store hlt
  · have htag := (tag_of_ok (hok.all field hfield)).1
    simp [Nat.ne_of_gt htag]
  · have hzero := tag_ne_zero (hok.all _ (List.mem_of_getElem? hf'))
    exact absurd (by simpa [PbField.tag] using hsel) hzero

/-- A member of the oneof is selected, and filled. -/
lemma along_select {tag : ℕ} {entries : List PbField} {sub : PbStruct}
    (hf : fields[i]? = some (.oneof tag entries))
    (hsub : Along s entries (a + m.offset) (store mem (a + s.which fields) t.sizeBytes tag) mem'
      sub) : Along s fields a mem mem' ((d.setNum 0 tag.toUInt32).setSub tag sub) := by
  obtain ⟨-, -, htype, -, hsize, hlt⟩ := hlaid.laidOut.memberFor hf hm
  have hmember := List.mem_of_getElem? hm
  obtain ⟨-, hwhich, hapart⟩ := hlaid.laidOut.which m hmember htype
  have hinside := hlaid.laidOut.inside m hmember
  have hok' := hok.all _ (List.mem_of_getElem? hf)
  have htag : tag.toUInt32.toNat = tag := by
    have hlt' : tag < 2 ^ 29 := (tag_of_ok hok').2
    simp only [Nat.toUInt32, UInt32.toNat_ofNat']
    omega
  have hstore := store_within mem (a + s.which fields) t.sizeBytes tag
  have hmem : Within (a + m.offset) m.itemSize
      (store mem (a + s.which fields) t.sizeBytes tag) mem' := by
    rw [hsize]
    exact hsub.within
  refine ⟨h.select hlaid (fun n hn hnot => ?_) ?_ (fun field hfield hnot => ?_)
    (fun j tag' entries' n hf' hn hsel => ?_),
    (hstore.mono (by omega) (by omega)).trans (hmem.mono (by omega) (by omega))⟩
  · -- a member outside the oneof
    obtain ⟨j, hj, rfl⟩ := List.getElem_of_mem hn
    have hn : (s.layout fields).members[j]? = some _ := List.getElem?_eq_getElem hj
    have hji : j ≠ i := by
      rintro rfl
      rw [hm] at hn
      cases hn
      exact hnot htype
    have hboth := (hlaid.laidOut.apart_of_ne hji hm hn).resolve_left fun hboth => hnot hboth.2
    have hagree := hmem.agree (Apart.shift hboth a)
    have hagree' := hstore.agree (Apart.shift (hapart _ (List.mem_of_getElem? hn)) a)
    exact fun x hx hx' => (hagree x hx hx').trans (hagree' x hx hx')
  · have hagree := hmem.agree (Apart.shift (hapart m hmember).symm a)
    rw [hagree.load_eq, load_store hlt]
    simpa using htag.symm
  · have h0 := Nat.ne_of_gt (tag_of_ok (hok.all field hfield)).1
    obtain ⟨j, hj⟩ := List.getElem?_of_mem hfield
    have hji : j ≠ i := by
      rintro rfl
      rw [hf] at hj
      cases hj
      exact hnot tag entries rfl
    have hne : field.tag ≠ tag := tag_ne hok hji hf hj
    simp [h0, hne]
  · have hsame : tag' = tag := by
      refine tag_injective (hok.all _ (List.mem_of_getElem? hf')) hok' ?_
      simpa [PbField.tag] using hsel.symm
    have hji : j = i := by
      by_contra hji
      exact tag_ne hok hji hf hf' hsame
    subst hji
    rw [hf] at hf'
    rw [hm] at hn
    cases hf'
    cases hn
    simpa using hsub.holds

end

/-! ### Defaults go along -/

lemma dataSize_eq (h : Stands (s.layout fields) a iter)
    (hm : (s.layout fields).members[iter.pos]? = some m) :
    (fieldAt iter.start iter.pos).dataSize = m.itemSize := by
  obtain ⟨b, hfield⟩ := fieldAt_some (s.layout fields) hm
  rw [h.start, hfield]
  rfl

lemma pSize_eq (hlaid : LaidOut s fields) (h : Stands (s.layout fields) a iter)
    (hm : (s.layout fields).members[iter.pos]? = some m) (honeof : m.htype = .oneof) :
    iter.pSize.toNat = a + s.which fields := by
  rw [h.size m hm (by simp [honeof])]
  exact hlaid.which_at (List.mem_of_getElem? hm) honeof a

def DefaultAlong (s : Structs t) (field : PbField) : Prop :=
  ∀ (fields : List PbField) (a : ℕ) (iter : PbFieldIter) (mem : Mem) (d : PbStruct),
    AllLaidOut s fields → TableOk fields → Points (s.layout fields) a iter →
    fields[iter.pos]? = some field → Holds s fields a mem d →
      Along s fields a mem (pbFieldSetToDefaultMem s field iter mem) (pbFieldSetToDefault field d)

lemma defaults_along (hall : ∀ field ∈ fields, DefaultAlong s field)
    (hlaid : AllLaidOut s fields) (hok : TableOk fields) {rest : List PbField}
    (hwalk : Before s fields a iter rest) (h : Holds s fields a mem d) :
    Along s fields a mem (pbFieldSetToDefaultMem.defaults s rest iter mem)
      (pbMessageSetToDefaults rest d) := by
  induction rest generalizing iter mem d with
  | nil => exact ⟨h, Within.refl _ _ _⟩
  | cons field rest ih =>
    have hfield := hwalk.head
    have hstep := hall field (List.mem_of_getElem? hfield) fields a iter mem d hlaid hok
      hwalk.points hfield h
    unfold pbFieldSetToDefaultMem.defaults
    have hnext := hwalk.next hlaid.laidOut
    rcases hr : pbFieldIterNext t iter with ⟨more, iter'⟩
    rw [hr] at hnext
    rcases hnext with ⟨rfl, rfl⟩ | ⟨rfl, hwalk'⟩
    · exact hstep
    · exact Along.trans hstep.within (ih hwalk' hstep.holds)

lemma message_along (hall : ∀ field ∈ fields, DefaultAlong s field)
    (hlaid : AllLaidOut s fields) (hok : TableOk fields) (h : Holds s fields a mem d) :
    Along s fields a mem (pbMessageSetToDefaultsMem s fields a mem)
      (pbMessageSetToDefaults fields d) := by
  have hbegin := begin_walk hlaid.laidOut a
  unfold pbMessageSetToDefaultsMem
  rcases hr : pbFieldIterBegin (s.layout fields).table a with ⟨more, iter⟩
  rw [hr] at hbegin
  rcases hbegin with ⟨rfl, rfl⟩ | ⟨rfl, hwalk⟩
  · exact ⟨h, Within.refl _ _ _⟩
  · exact defaults_along hall hlaid hok hwalk h

lemma default_along (s : Structs t) (field : PbField) : DefaultAlong s field := by
  induction field using fieldInduction with
  | uint32 tag =>
    intro fields a iter mem d hlaid hok hpoints hf h
    obtain ⟨m, hm⟩ := hlaid.laidOut.exists_member hf
    obtain ⟨-, -, -, -, hsize⟩ := hlaid.laidOut.memberFor hf hm
    unfold pbFieldSetToDefaultMem
    rw [hpoints.data m hm, dataSize_eq hpoints.stands hm, hsize]
    exact along_number hlaid hok h hm hf (zero_within _ _ _)
      (load_zero (Nat.le_refl _) (Nat.le_refl _))
  | message tag entries ih =>
    intro fields a iter mem d hlaid hok hpoints hf h
    obtain ⟨m, hm⟩ := hlaid.laidOut.exists_member hf
    have hmem := List.mem_of_getElem? hf
    have hsub : Holds s entries (a + m.offset) mem (d.sub tag) := holds_iff.mp h _ _ m hf hm
    have halong := message_along ih (hlaid.message hmem) (tableOk_message (hok.all _ hmem)) hsub
    unfold pbFieldSetToDefaultMem
    rw [hpoints.data m hm]
    exact along_message hlaid hok h hm hf halong
  | oneof tag entries _ =>
    intro fields a iter mem d hlaid hok hpoints hf h
    obtain ⟨m, hm⟩ := hlaid.laidOut.exists_member hf
    have hfor := hlaid.laidOut.memberFor hf hm
    unfold pbFieldSetToDefaultMem
    rw [pSize_eq hlaid.laidOut hpoints.stands hm hfor.2.2.1]
    exact along_unselect hlaid hok h hm hf
  | callback tag => exact fun _ _ _ _ _ _ _ _ _ h => ⟨h, Within.refl _ _ _⟩
  | last => exact fun _ _ _ _ _ _ _ _ _ h => ⟨h, Within.refl _ _ _⟩

lemma setToDefaults_along (hlaid : AllLaidOut s fields) (hok : TableOk fields)
    (h : Holds s fields a mem d) : Along s fields a mem (pbMessageSetToDefaultsMem s fields a mem)
      (pbMessageSetToDefaults fields d) :=
  message_along (fun field _ => default_along s field) hlaid hok h

/-! ### Zeros -/

def ZeroHeld (s : Structs t) (field : PbField) : Prop :=
  ∀ (m : Member) (a b n : ℕ) (mem : Mem), MemberFor s field m → FieldLaidOut s field →
    b ≤ a + m.offset → a + m.offset + m.itemSize ≤ b + n →
    (m.htype = .oneof → b ≤ (a + m.offset + m.distance : ℤ).toNat ∧
      (a + m.offset + m.distance : ℤ).toNat + t.sizeBytes ≤ b + n) →
    fieldOk field = true → fieldHolds s field m a (zero mem b n) .zero

lemma zero_holds_of (hall : ∀ field ∈ fields, ZeroHeld s field) (hlaid : AllLaidOut s fields)
    (hok : TableOk fields) {b n : ℕ} (hb : b ≤ a) (hn : a + s.sizeof fields ≤ b + n) :
    Holds s fields a (zero mem b n) .zero := by
  refine holds_iff.mpr fun i field m hf hm => ?_
  have hfield := List.mem_of_getElem? hf
  have hmember := List.mem_of_getElem? hm
  have hinside := hlaid.laidOut.inside m hmember
  refine hall field hfield m a b n mem (hlaid.laidOut.memberFor hf hm) (hlaid.field hfield)
    (by omega) (by omega) (fun honeof => ?_) (hok.all field hfield)
  have hwhich := (hlaid.laidOut.which m hmember honeof).2.1
  rw [hlaid.laidOut.which_at hmember honeof]
  omega

lemma zeroHeld (s : Structs t) (field : PbField) : ZeroHeld s field := by
  induction field using fieldInduction with
  | uint32 tag =>
    rintro m a b n mem ⟨-, -, -, -, hsize⟩ - hb hn - -
    exact load_zero hb (by omega)
  | message tag fields ih =>
    rintro m a b n mem ⟨-, -, -, -, hsize⟩ hlaid hb hn - hok
    exact zero_holds_of ih hlaid (tableOk_message hok) hb (by omega)
  | oneof tag fields _ =>
    rintro m a b n mem ⟨-, -, honeof, -⟩ - - - hwhich hok
    obtain ⟨hlow, hhigh⟩ := hwhich honeof
    exact ⟨load_zero hlow hhigh, fun hsel => absurd hsel (PbSame.tag_ne_zero hok)⟩
  | callback tag => exact fun m a b n mem _ _ hb hn _ _ => load_zero hb hn
  | last => exact fun _ _ _ _ _ _ _ _ _ _ _ => trivial

lemma zero_holds (hlaid : AllLaidOut s fields) (hok : TableOk fields) (a : ℕ) (mem : Mem) :
    Holds s fields a (zero mem a (s.sizeof fields)) .zero :=
  zero_holds_of (fun field _ => zeroHeld s field) hlaid hok (Nat.le_refl _) (Nat.le_refl _)

/-! ### Decoding goes along -/

/-- The decoder does in memory what it does to the struct, with the same result. -/
def Simulates (s : Structs t) (fields : List PbField) (a : ℕ) (decode : Decoder)
    (decodeMem : MemDecoder) : Prop :=
  ∀ (mem : Mem) (dest : PbStruct) (stream : PbIstream), Holds s fields a mem dest →
    ∃ mem', decodeMem mem stream = some (mem', (decode dest stream).2) ∧
      Along s fields a mem mem' (decode dest stream).1

lemma submessage_along {entries : List PbField} {b : ℕ} {noinit : Decoder}
    {noinitMem : MemDecoder} (hnoinit : Simulates s entries b noinit noinitMem)
    (h : Holds s entries b mem d) (stream : PbIstream) :
    ∃ mem', pbDecSubmessageMem noinitMem mem stream =
      some (mem', (pbDecSubmessage noinit d stream).2) ∧
        Along s entries b mem mem' (pbDecSubmessage noinit d stream).1 := by
  unfold pbDecSubmessageMem pbDecSubmessage
  rcases pbMakeStringSubstream stream with e | ⟨substream, stream⟩
  · exact ⟨mem, rfl, h, Within.refl _ _ _⟩
  · obtain ⟨mem', hdecode, halong⟩ := hnoinit mem d substream h
    simp only [hdecode]
    rcases hr : noinit d substream with ⟨d', e | substream'⟩
    · rw [hr] at halong
      exact ⟨mem', rfl, halong⟩
    · rw [hr] at halong
      exact ⟨mem', rfl, halong⟩

section
variable {noinit : List PbField → Decoder} {noinitMem : List PbField → ℕ → MemDecoder}
  (hnoinit : ∀ entries b, AllLaidOut s entries → TableOk entries →
    Simulates s entries b (noinit entries) (noinitMem entries b))

include hnoinit

lemma decodeStaticField_simulates (hlaid : AllLaidOut s fields) (hok : TableOk fields)
    (hstands : Stands (s.layout fields) a iter) {field : PbField}
    (hf : fields[iter.pos]? = some field) :
    Simulates s fields a (decodeStaticField noinit field)
      (decodeStaticFieldMem s noinitMem field iter) := by
  intro mem dest stream h
  obtain ⟨m, hm⟩ := hlaid.laidOut.exists_member hf
  have hmem := List.mem_of_getElem? hf
  cases field with
  | uint32 tag =>
    unfold decodeStaticFieldMem decodeStaticField pbDecUvarintMem pbDecUvarint
    simp only
    rcases pbDecodeVarint stream with e | ⟨value, stream⟩
    · exact ⟨mem, rfl, h, Within.refl _ _ _⟩
    · refine ⟨_, rfl, ?_⟩
      rw [hstands.data m hm]
      have hlt : value.toUInt32.toNat < 256 ^ 4 := value.toUInt32.toNat_lt
      exact along_number hlaid hok h hm hf (store_within _ _ _ _) (load_store hlt)
  | message tag entries =>
    have hsub : Holds s entries (a + m.offset) mem (dest.sub tag) :=
      holds_iff.mp h _ _ m hf hm
    obtain ⟨mem', hdecode, halong⟩ := submessage_along (hnoinit entries (a + m.offset)
      (hlaid.message hmem) (tableOk_message (hok.all _ hmem))) hsub stream
    refine ⟨mem', ?_, along_message hlaid hok h hm hf halong⟩
    unfold decodeStaticFieldMem
    simp only [hstands.data m hm]
    exact hdecode
  | oneof tag entries =>
    obtain ⟨-, -, htype, -, hsize, -⟩ := hlaid.laidOut.memberFor hf hm
    have hentries := tableOk_oneof (hok.all _ hmem)
    -- the bytes of the member are zeros, then defaults, and then decoded into
    have hzero := zero_within (store mem (a + s.which fields) t.sizeBytes tag) (a + m.offset)
      (s.sizeof entries)
    have hdefaults := setToDefaults_along (hlaid.oneof hmem) hentries
      (zero_holds (hlaid.oneof hmem) hentries (a + m.offset)
        (store mem (a + s.which fields) t.sizeBytes tag))
    obtain ⟨mem', hdecode, halong⟩ := submessage_along (hnoinit entries (a + m.offset)
      (hlaid.oneof hmem) hentries) hdefaults.holds stream
    refine ⟨mem', ?_, along_select hlaid hok h hm hf
      (Along.trans hzero (Along.trans hdefaults.within halong))⟩
    unfold decodeStaticFieldMem
    simp only [hstands.data m hm, pSize_eq hlaid.laidOut hstands hm htype,
      dataSize_eq hstands hm, hsize]
    exact hdecode
  | callback tag => exact ⟨mem, rfl, h, Within.refl _ _ _⟩
  | last => exact absurd (hok.all _ hmem) (by simp [fieldOk])

lemma decodeField_simulates (hlaid : AllLaidOut s fields) (hok : TableOk fields)
    (hstands : Stands (s.layout fields) a iter) {field : PbField}
    (hf : fields[iter.pos]? = some field) (wireType : ℕ) :
    Simulates s fields a (decodeField noinit wireType field)
      (decodeFieldMem s noinitMem wireType field iter) := by
  have hstatic := decodeStaticField_simulates hnoinit hlaid hok hstands hf
  cases field with
  | callback tag =>
    intro mem dest stream h
    obtain ⟨m, hm⟩ := hlaid.laidOut.exists_member hf
    obtain ⟨-, -, -, -, hsize⟩ := hlaid.laidOut.memberFor hf hm
    have hnull : load mem (a + m.offset) t.ptrSize = 0 :=
      load_eq_zero hsize (holds_iff.mp h _ _ m hf hm)
    unfold decodeFieldMem decodeField decodeCallbackFieldMem decodeCallbackField
    simp only [hstands.data m hm]
    rw [if_pos (Or.inr hnull)]
    rcases pbSkipField wireType stream with e | ⟨u, stream⟩
    · exact ⟨mem, rfl, h, Within.refl _ _ _⟩
    · exact ⟨mem, rfl, h, Within.refl _ _ _⟩
  | uint32 | message | oneof | last => exact hstatic

end

lemma decodeLast_simulates (noinit : List PbField → Decoder)
    (noinitMem : List PbField → ℕ → MemDecoder) (wireType : ℕ) (iter : PbFieldIter) :
    Simulates s fields a (decodeField noinit wireType .last)
      (decodeFieldMem s noinitMem wireType .last iter) := by
  intro mem dest stream h
  unfold decodeFieldMem decodeField decodeStaticFieldMem decodeStaticField pbDecVarintMem
    pbDecVarint
  simp only
  rcases pbDecodeVarint stream with e | ⟨value, stream⟩
  · exact ⟨mem, rfl, h, Within.refl _ _ _⟩
  · exact ⟨mem, rfl, h, Within.refl _ _ _⟩

lemma laidOut_uncounted (h : LaidOut s fields) : Uncounted (s.layout fields) := by
  intro m hm
  obtain ⟨i, hm⟩ := List.getElem?_of_mem hm
  have hi := (List.getElem?_eq_some_iff.mp hm).1
  rw [← h.members.length_eq] at hi
  rcases (h.memberFor (List.getElem?_eq_getElem hi) hm).kind with
    ⟨htype, -⟩ | ⟨htype | ⟨htype, hsize⟩, -⟩
  · simp [htype]
  · simp [htype]
  · simp [htype, hsize]

lemma noinitLoop_simulates (countAt : ℕ → ℕ) (fuel depth : ℕ) (hlaid : AllLaidOut s fields)
    (hok : TableOk fields) {v : Locals} (hv : v.Ok (s.layout fields) a) :
    Simulates s fields a (noinitLoop fuel fields)
      (noinitLoopMem s countAt fuel depth fields v) := by
  induction fuel generalizing depth fields a v with
  | zero => exact fun mem dest stream h => ⟨mem, rfl, h, Within.refl _ _ _⟩
  | succ fuel ih =>
    intro mem dest stream h
    unfold noinitLoopMem noinitLoop
    by_cases hend : stream.bytesLeft = 0
    · rw [if_pos hend, if_pos hend, finish_ok hv]
      exact ⟨mem, rfl, h, Within.refl _ _ _⟩
    rw [if_neg hend, if_neg hend]
    rcases pbDecodeTag stream with e | ⟨_ | ⟨wireType, tag⟩, stream⟩
    · exact ⟨mem, rfl, h, Within.refl _ _ _⟩
    · simp only [finish_ok hv]
      exact ⟨mem, rfl, h, Within.refl _ _ _⟩
    have hround := round_of hlaid.laidOut.tags (laidOut_uncounted hlaid.laidOut) hok hv
      (countAt depth) tag
    cases hround with
    | missed hfind hextension hstands hlookup =>
      simp only [hfind, hextension, hlookup]
      rcases pbSkipField wireType stream with e | ⟨u, stream⟩
      · exact ⟨mem, rfl, h, Within.refl _ _ _⟩
      · exact ih depth hlaid hok (hv.move hstands _) mem dest stream h
    | @found iter v' hfind hcount hv' hlookup hentry =>
      have hstep : Simulates s fields a
          (decodeField (noinitLoop fuel) wireType (fields.getD v'.iter.pos .last))
          (decodeFieldMem s (fun fields dest => noinitLoopMem s countAt fuel (depth + 1) fields
            (.start (s.layout fields).table dest)) wireType (fields.getD v'.iter.pos .last)
              v'.iter) := by
        rcases hf : fields[v'.iter.pos]? with _ | field
        · have hlast : fields.getD v'.iter.pos .last = .last := by simp [hf]
          rw [hlast]
          exact decodeLast_simulates _ _ wireType v'.iter
        · have hget : fields.getD v'.iter.pos .last = field := by simp [hf]
          rw [hget]
          exact decodeField_simulates (fun entries b hlaid hok =>
            ih (depth + 1) hlaid hok (start_ok _ b)) hlaid hok hv'.stands hf wireType
      simp only [hfind, hcount, hlookup]
      obtain ⟨mem', hdecode, halong⟩ := hstep mem dest stream h
      simp only [hdecode]
      rcases hr : decodeField (noinitLoop fuel) wireType (fields.getD v'.iter.pos .last) dest stream
        with ⟨dest', e | stream'⟩
      · rw [hr] at halong
        exact ⟨mem', rfl, halong⟩
      · rw [hr] at halong
        obtain ⟨mem'', hrest, halong'⟩ := ih depth hlaid hok hv' mem' dest' stream' halong.holds
        exact ⟨mem'', hrest, Along.trans halong.within halong'⟩

lemma decode_along (countAt : ℕ → ℕ) (hlaid : AllLaidOut s fields) (hok : TableOk fields)
    (h : Holds s fields a mem d) (stream : PbIstream) :
    ∃ mem', pbDecodeMem s countAt stream fields a mem =
        some (mem', (pbDecode stream fields d).2) ∧
      Along s fields a mem mem' (pbDecode stream fields d).1 := by
  have hdefaults := setToDefaults_along hlaid hok h
  obtain ⟨mem', hdecode, halong⟩ := noinitLoop_simulates countAt (stream.bytesLeft + 1) 0 hlaid hok
    (start_ok (s.layout fields) a) _ _ stream hdefaults.holds
  exact ⟨mem', hdecode, Along.trans hdefaults.within halong⟩

/-- **The memory holds what was decoded**: `pb_decode` does at the addresses of the members what it
does to the struct, with the same result, whatever the bytes are, however the members of the
oneofs lie over each other and wherever the counters are. It never calls a callback, and stores
nothing outside the struct. -/
theorem decode_memory (s : Structs t) (countAt : ℕ → ℕ) (fields : List PbField)
    (hlaid : AllLaidOut s fields) (hok : TableOk fields) (a : ℕ) (mem : Mem) (dest : PbStruct)
    (stream : PbIstream) (h : Holds s fields a mem dest) :
    ∃ mem', pbDecodeMem s countAt stream fields a mem =
        some (mem', (pbDecode stream fields dest).2) ∧
      Holds s fields a mem' (pbDecode stream fields dest).1 ∧
      Within a (s.sizeof fields) mem mem' := by
  obtain ⟨mem', hdecode, halong⟩ := decode_along countAt hlaid hok h stream
  exact ⟨mem', hdecode, halong.holds, halong.within⟩

def unionFields : List PbField :=
  [.uint32 1, .oneof 2 [.uint32 1, .uint32 2], .oneof 3 [.callback 1]]

def unionStructs : Structs ⟨1, 4⟩ where
  layout
    | [.uint32 1, .oneof 2 _, .oneof 3 _] => {
        members := [⟨1, .static, .optional, 0, 0, 4, 0, false⟩,
          ⟨2, .static, .oneof, 8, -4, 8, 0, false⟩, ⟨3, .static, .oneof, 8, -4, 8, 0, true⟩]
        tags := by simp
        chain := by simp [Member.Follows, Member.size, Target.sizeMax] }
    | [.uint32 1, .uint32 2] => {
        members := [⟨1, .static, .optional, 0, 0, 4, 0, false⟩,
          ⟨2, .static, .optional, 4, 0, 4, 0, false⟩]
        tags := by simp
        chain := by simp [Member.Follows, Member.size, Target.sizeMax] }
    | [.callback 1] => {
        members := [⟨1, .callback, .repeated, 0, 0, 8, 0, false⟩]
        tags := by simp
        chain := by simp }
    | _ => .empty _
  sizeof fields := if fields.length = 3 then 16 else 8
  which _ := 4

lemma unionStructs_laidOut : AllLaidOut unionStructs unionFields :=
  allLaidOut_of_check (by decide)

/-- The callback is selected when its bytes hold the numbers of the other member, and then gets two
items, which are skipped. -/
theorem decode_memory_union : ∃ mem' stream, pbDecodeMem unionStructs (fun _ => 8192)
    (on [0x12, 0x0C, 0x08, 0xC1, 0x82, 0x85, 0x8A, 0x04, 0x10, 0xC1, 0x82, 0x85, 0x8A, 0x04,
      0x1A, 0x04, 0x0A, 0x00, 0x0A, 0x00] []) unionFields 4096 (zero (fun _ => 0xFF) 4096 16) =
        some (mem', .ok stream) ∧ load mem' 4100 1 = 3 ∧ load mem' 4104 8 = 0 := by
  have hok : TableOk unionFields :=
    ⟨by decide, by simp [unionFields, fieldOk, fieldOk.allOk, PbField.tag]⟩
  obtain ⟨mem', hdecode, hholds, -⟩ := decode_memory unionStructs (fun _ => 8192) unionFields
    unionStructs_laidOut hok 4096 (zero (fun _ => 0xFF) 4096 16) .zero
    (on [0x12, 0x0C, 0x08, 0xC1, 0x82, 0x85, 0x8A, 0x04, 0x10, 0xC1, 0x82, 0x85, 0x8A, 0x04,
      0x1A, 0x04, 0x0A, 0x00, 0x0A, 0x00] [])
    (zero_holds unionStructs_laidOut hok 4096 (fun _ => 0xFF))
  obtain ⟨-, -, ⟨hwhich, hselected⟩, -⟩ := hholds
  exact ⟨mem', _, hdecode, hwhich, (hselected rfl).1⟩

end RoombaBrain.PbDecodeMemory
