import RoombaBrain.PbCodec
import RoombaBrain.Response
import RoombaBrain.Delivery

/-!
Requests as clients put them together.

A client that encodes its struct with nanopb has it handled as if it had made the call itself. It
may send fields that the server does not know, and several requests in one post, of which the last
one is carried out. What cannot be a field, such as the brace that a JSON text begins with, ends
the request there. All of this holds up to the first zero byte, where every request ends.
-/

namespace RoombaBrain.Requests

open RoombaBrain.ByteReader RoombaBrain.PbStream RoombaBrain.PbLocal RoombaBrain.PbDecode
  RoombaBrain.PbMessage RoombaBrain.PbFollow RoombaBrain.PbFields RoombaBrain.PbVarint
  RoombaBrain.PbVarint32 RoombaBrain.PbEncode RoombaBrain.PbWire RoombaBrain.PbMerge
  RoombaBrain.PbSame RoombaBrain.PbEntered RoombaBrain.PbCodec RoombaBrain.RpcSchema
  RoombaBrain.Rpc RoombaBrain.Dispatch RoombaBrain.Perform RoombaBrain.Response

variable {mallocOk : Bool}

/-! ### What decides the outcome -/

lemma perform_congr {mem mem' : List UInt8} (h : 0 ∈ mem) (h' : 0 ∈ mem')
    (hstruct : storeAll (entered mem).nodes .zero = storeAll (entered mem').nodes .zero)
    (hwhole : (entered mem).whole = (entered mem').whole) :
    performRpcRequest mallocOk (some mem) = performRpcRequest mallocOk (some mem') := by
  have hanswer : wireAnswer (entered mem).nodes = wireAnswer (entered mem').nodes := by
    rw [← answer_entered, ← answer_entered, hstruct]
  rw [performRpcRequest_eq mallocOk h, performRpcRequest_eq mallocOk h']
  simp only [outcomeOf, hstruct, hwhole, hanswer]

/-- Bytes without a zero are entered before those that follow. -/
lemma entered_append {w r : List UInt8} (h : 0 ∉ w) :
    entered (w ++ r) = parse requestFields (w ++ cstring r) := by
  unfold entered
  rw [cstring_append_of_notMem h]

/-! ### Unknown fields -/

/-- **Fields that the server does not know change nothing**, if there is no zero byte in them or
before them: not what is sent to the Roomba, not what is logged, and not the response. -/
theorem unknown_request_fields (mallocOk : Bool) (w u v rest : List UInt8)
    (hw : Covered requestFields w) (hu : Unknown requestFields u) (hzero : 0 ∉ w ++ u) :
    performRpcRequest mallocOk (some (w ++ u ++ v ++ 0 :: rest)) =
      performRpcRequest mallocOk (some (w ++ v ++ 0 :: rest)) := by
  have hzero' : 0 ∉ w := fun hmem => hzero (List.mem_append_left u hmem)
  obtain ⟨nodes, hall, hskip⟩ := hu.enters
  have henters := hw.enters
  have hwith : entered (w ++ u ++ v ++ 0 :: rest) =
      parse requestFields (w ++ u ++ cstring (v ++ 0 :: rest)) := by
    rw [List.append_assoc (w ++ u), entered_append hzero]
  have hwithout : entered (w ++ v ++ 0 :: rest) =
      parse requestFields (w ++ cstring (v ++ 0 :: rest)) := by
    rw [List.append_assoc w, entered_append hzero']
  refine perform_congr (by simp) (by simp) ?_ ?_
  · rw [hwith, hwithout, (henters.append hskip).nodes, henters.nodes, storeAll_append,
      storeAll_append, storeAll_append, storeAll_skipped hall]
  · rw [hwith, hwithout, (henters.append hskip).whole, henters.whole]

/-- A drive with a fourth field between its id and itself. -/
theorem unknown_request_fields_fourth : ∃ out, performRpcRequest true
    (some ([0x08, 0x07] ++ [0x20, 0x01] ++ [0x1A, 0x06, 0x0A, 0x04, 0x08, 0x64, 0x10, 0x01] ++
      0 :: [])) = some out ∧ out.frames = [[137, 0, 100, 0, 1]] ∧ out.reply = some (2, [0x08, 7]) :=
  have hsame := unknown_request_fields true [0x08, 0x07] [0x20, 0x01]
    [0x1A, 0x06, 0x0A, 0x04, 0x08, 0x64, 0x10, 0x01] [] ⟨by decide, by decide⟩
    (.field (c := [0x20]) (d := [0x01])
      (key_reads (by omega) (by omega) (by omega) : Reads keyReader (key 0 4) (some (0, 4)))
      (Or.inl rfl) ((skipVarint_reads_iff [0x01]).mpr rfl) .nil) (by decide)
  ⟨_, hsame.trans (performRpcRequest_eq true (by simp)), by decide, by decide⟩

/-! ### What cannot be a field -/

/-- The wire types that `pb_skip_field` knows. -/
def Skippable (wireType : ℕ) : Prop := wireType ∈ [0, 1, 2, 5]

lemma skip_fails {wireType : ℕ} (h : ¬ Skippable wireType) (w : List UInt8) :
    Fails (pbSkipField wireType) w := by
  refine ⟨"invalid wire_type", fun m => ?_⟩
  unfold pbSkipField
  split
  · exact absurd (by simp [Skippable]) h
  · exact absurd (by simp [Skippable]) h
  · exact absurd (by simp [Skippable]) h
  · exact absurd (by simp [Skippable]) h
  · rfl

/-- **A request ends at what cannot be a field**: a key that is not in the table, of a wire type
that cannot be skipped, with no zero byte in it or before it. What comes before it is carried out
and answered as if it were alone, and nothing after it is looked at: of the outcome only the result
of `pb_decode` differs, which is not looked at either. -/
theorem request_ends (mallocOk : Bool) (w c v rest rest' : List UInt8) (wireType tag : ℕ)
    (hw : Covered requestFields w) (hkey : Reads keyReader c (some (wireType, tag)))
    (hfind : pbFieldIterFind requestFields tag = none) (hskip : ¬ Skippable wireType)
    (hzero : 0 ∉ w ++ c) :
    ∃ out, performRpcRequest mallocOk (some (w ++ 0 :: rest)) = some out ∧
      performRpcRequest mallocOk (some (w ++ c ++ v ++ 0 :: rest')) =
        some { out with decoded := false } := by
  have hzero' : 0 ∉ w := fun hmem => hzero (List.mem_append_left c hmem)
  have henters := hw.enters
  have hbroken : ∀ t, parse requestFields (c ++ t) = ⟨[], false⟩ := by
    intro t
    have hbody : Fails (bodyReader parse (pbFieldIterFind requestFields tag) wireType tag) t := by
      obtain ⟨e, he⟩ := skip_fails hskip t
      rw [hfind]
      exact ⟨e, fun m => bind_error (he m)⟩
    rw [parse_eq, (Rule.broken (keyReader_ne_nil hkey) hkey hbody).eq, hfind]
    rfl
  have hwith : entered (w ++ c ++ v ++ 0 :: rest') =
      parse requestFields (w ++ (c ++ cstring (v ++ 0 :: rest'))) := by
    rw [List.append_assoc (w ++ c), entered_append hzero, List.append_assoc]
  have hwithout : entered (w ++ 0 :: rest) = parse requestFields (w ++ []) :=
    entered_append hzero'
  have hnodes : (entered (w ++ c ++ v ++ 0 :: rest')).nodes =
      (entered (w ++ 0 :: rest)).nodes := by
    rw [hwith, hwithout, henters.nodes, henters.nodes, hbroken]
    rfl
  have hwhole : (entered (w ++ c ++ v ++ 0 :: rest')).whole = false := by
    rw [hwith, henters.whole, hbroken]
  refine ⟨_, performRpcRequest_eq mallocOk (by simp), ?_⟩
  rw [performRpcRequest_eq mallocOk (by simp)]
  simp only [outcomeOf, hnodes, hwhole]

/-- A drive with a text in braces behind it: the brace is a key with the number 15 and a wire type
for groups. -/
theorem request_ends_json : ∃ out, performRpcRequest true
    (some ([0x1A, 0x06, 0x0A, 0x04, 0x08, 0x64, 0x10, 0x01] ++ [0x7B] ++
      [0x22, 0x69, 0x64, 0x22, 0x3A, 0x31, 0x7D] ++ 0 :: [])) = some out ∧
      out.decoded = false ∧ out.frames = [[137, 0, 100, 0, 1]] ∧ out.reply = some (0, []) := by
  obtain ⟨out, hout, hends⟩ := request_ends true [0x1A, 0x06, 0x0A, 0x04, 0x08, 0x64, 0x10, 0x01]
    [0x7B] [0x22, 0x69, 0x64, 0x22, 0x3A, 0x31, 0x7D] [] [] 3 15 ⟨by decide, by decide⟩
    (key_reads (by omega) (by omega) (by omega) : Reads keyReader (key 3 15) (some (3, 15)))
    rfl (by simp [Skippable]) (by decide)
  rw [performRpcRequest_eq true (by simp)] at hout
  cases hout
  exact ⟨_, hends, rfl, by decide, by decide⟩

/-! ### Several requests in one post -/

/-- The same member of the oneof is selected in both structs, or none. -/
lemma same_member {fields : List PbField} {a b : PbStruct} (h : Same fields a b) :
    (∃ tag entries, .oneof tag entries ∈ fields ∧ a.num 0 = tag.toUInt32 ∧
      b.num 0 = tag.toUInt32 ∧ Same entries (a.sub tag) (b.sub tag)) ∨
    ∀ tag entries, .oneof tag entries ∈ fields →
      a.num 0 ≠ tag.toUInt32 ∧ b.num 0 ≠ tag.toUInt32 := by
  by_cases hsel : ∃ tag entries, .oneof tag entries ∈ fields ∧ a.num 0 = tag.toUInt32
  · obtain ⟨tag, entries, hmem, ha⟩ := hsel
    obtain ⟨hwhich, hsub⟩ := same_iff.mp h _ hmem
    exact Or.inl ⟨tag, entries, hmem, ha, hwhich.mp ha, hsub ha⟩
  · refine Or.inr fun tag entries hmem => ?_
    have ha : a.num 0 ≠ tag.toUInt32 := fun ha => hsel ⟨tag, entries, hmem, ha⟩
    exact ⟨ha, fun hb => ha ((same_iff.mp h _ hmem).1.mpr hb)⟩

lemma toNat_ne {v : UInt32} {k : ℕ} (h : v ≠ k.toUInt32) (hk : k < 2 ^ 32) : v.toNat ≠ k := by
  intro he
  apply h
  rw [← UInt32.toNat_inj, he]
  simp only [Nat.toUInt32, UInt32.toNat_ofNat']
  omega

lemma notMem_of_none {fields : List PbField} {d : PbStruct} {tags : List ℕ}
    (h : ∀ tag entries, .oneof tag entries ∈ fields → d.num 0 ≠ tag.toUInt32)
    (htags : ∀ tag ∈ tags, tag < 2 ^ 32 ∧ ∃ entries, .oneof tag entries ∈ fields) :
    (d.num 0).toNat ∉ tags := by
  intro hmem
  obtain ⟨hlt, entries, hentry⟩ := htags _ hmem
  exact toNat_ne (h _ entries hentry) hlt rfl

lemma roombaAnswer_logged {n : ℕ} (h : n ∉ [1, 2, 3, 4, 7]) (value : UInt32) :
    roombaAnswer n value = .logged := by
  rcases n with _ | _ | _ | _ | _ | _ | _ | _ | n
  all_goals first | rfl | exact absurd (by simp) h

lemma actuatorAnswer_logged {n : ℕ} (h : n ∉ [1, 2, 3, 4, 5, 6, 8, 9, 11, 12])
    (value value' : UInt32) : actuatorAnswer n value value' = .logged := by
  rcases n with _ | _ | _ | _ | _ | _ | _ | _ | _ | _ | _ | _ | _ | n
  all_goals first | rfl | exact absurd (by simp) h

lemma answerRoomba_same {a b : PbStruct} (h : Same roombaFields a b) :
    answerRoomba (rpcRoomba a) = answerRoomba (rpcRoomba b) := by
  rcases same_member h with ⟨tag, entries, hmem, ha, hb, hsub⟩ | hnone
  · simp only [roombaFields, List.mem_cons, PbField.oneof.injEq, List.not_mem_nil, or_false] at hmem
    simp only [answerRoomba, rpcRoomba, ha, hb]
    rcases hmem with ⟨rfl, rfl⟩ | ⟨rfl, rfl⟩ | ⟨rfl, rfl⟩ | ⟨rfl, rfl⟩ | ⟨rfl, rfl⟩ | ⟨rfl, rfl⟩ |
      ⟨rfl, rfl⟩
    · rfl
    · exact congrArg (roombaAnswer 2) hsub.1
    · exact congrArg (roombaAnswer 3) hsub.1
    · exact congrArg (roombaAnswer 4) hsub.1
    · rfl
    · rfl
    · rfl
  · have htags : ∀ tag ∈ [1, 2, 3, 4, 7], tag < 2 ^ 32 ∧
        ∃ entries, .oneof tag entries ∈ roombaFields := by
      simp [roombaFields]
    have hna := notMem_of_none (fun tag entries hmem => (hnone tag entries hmem).1) htags
    have hnb := notMem_of_none (fun tag entries hmem => (hnone tag entries hmem).2) htags
    exact (roombaAnswer_logged hna _).trans (roombaAnswer_logged hnb _).symm

lemma answerActuator_logged {actuator : RpcActuator}
    (h : actuator.whichRequest.toNat ∉ [1, 2, 3, 4, 5, 6, 8, 9, 11, 12]) :
    answerActuator actuator = .logged := by
  unfold answerActuator
  split
  · next h1 => exact absurd (by simp [h1]) h
  · exact actuatorAnswer_logged h _ _

lemma answerActuator_same {a b : PbStruct} (h : Same actuatorFields a b) :
    answerActuator (rpcActuator a) = answerActuator (rpcActuator b) := by
  rcases same_member h with ⟨tag, entries, hmem, ha, hb, hsub⟩ | hnone
  · simp only [actuatorFields, List.mem_cons, PbField.oneof.injEq, List.not_mem_nil, or_false]
      at hmem
    simp only [answerActuator, rpcActuator, ha, hb]
    rcases hmem with ⟨rfl, rfl⟩ | ⟨rfl, rfl⟩ | ⟨rfl, rfl⟩ | ⟨rfl, rfl⟩ | ⟨rfl, rfl⟩ | ⟨rfl, rfl⟩ |
      ⟨rfl, rfl⟩ | ⟨rfl, rfl⟩ | ⟨rfl, rfl⟩ | ⟨rfl, rfl⟩ | ⟨rfl, rfl⟩ | ⟨rfl, rfl⟩
    · exact congrArg₂ (actuatorAnswer 1) hsub.1 hsub.2.1
    · rfl
    · rfl
    · rfl
    · rfl
    · rfl
    · rfl
    · rfl
    · rfl
    · rfl
    · rfl
    · exact congrArg (fun v => actuatorAnswer 12 v 0) hsub.1
  · have htags : ∀ tag ∈ [1, 2, 3, 4, 5, 6, 8, 9, 11, 12], tag < 2 ^ 32 ∧
        ∃ entries, .oneof tag entries ∈ actuatorFields := by
      simp [actuatorFields]
    have hna := notMem_of_none (fun tag entries hmem => (hnone tag entries hmem).1) htags
    have hnb := notMem_of_none (fun tag entries hmem => (hnone tag entries hmem).2) htags
    exact (answerActuator_logged hna).trans (answerActuator_logged hnb).symm

lemma answer_logged {request : RpcRequest} (h : request.whichRequest.toNat ∉ [2, 3]) :
    answer request = .logged := by
  unfold answer
  split
  · next h2 => exact absurd (by simp [h2]) h
  · next h3 => exact absurd (by simp [h3]) h
  · rfl

lemma answer_same {a b : PbStruct} (h : Same requestFields a b) :
    answer (rpcRequest a) = answer (rpcRequest b) := by
  rcases same_member h with ⟨tag, entries, hmem, ha, hb, hsub⟩ | hnone
  · simp only [requestFields, List.mem_cons, PbField.oneof.injEq, List.not_mem_nil, or_false,
      reduceCtorEq, false_or] at hmem
    simp only [answer, rpcRequest, ha, hb]
    rcases hmem with ⟨rfl, rfl⟩ | ⟨rfl, rfl⟩
    · exact answerRoomba_same hsub
    · exact answerActuator_same hsub
  · have htags : ∀ tag ∈ [2, 3], tag < 2 ^ 32 ∧
        ∃ entries, .oneof tag entries ∈ requestFields := by
      simp [requestFields]
    have hna := notMem_of_none (fun tag entries hmem => (hnone tag entries hmem).1) htags
    have hnb := notMem_of_none (fun tag entries hmem => (hnone tag entries hmem).2) htags
    exact (answer_logged hna).trans (answer_logged hnb).symm

lemma requestFields_ok : TableOk requestFields := ⟨by decide, by decide⟩

lemma length_request (src : PbStruct) : (wire requestFields src).length < 2 ^ 32 := by
  have hbound : wireBound requestFields < 2 ^ 32 := by decide
  exact Nat.lt_of_le_of_lt (length_wire_le requestFields src) hbound

/-- The bytes of a struct, with a zero after them, are entered as a request that is answered as the
struct itself. -/
lemma entered_wire {src : PbStruct} (hfull : ¬ Hollow requestFields src) (rest : List UInt8) :
    let p := entered (wire requestFields src ++ 0 :: rest)
    wireAnswer p.nodes = answer (rpcRequest src) ∧ p.whole = true ∧
      (storeAll p.nodes .zero).num 1 = src.num 1 := by
  have hself : Known requestFields requestFields := fun f hf =>
    known_self f requestFields requestFields_ok hf
  have hzero : 0 ∉ wire requestFields src := fun hmem =>
    hfull ((zero_mem_wire requestFields src requestFields_ok.all).mp hmem)
  have hentered : entered (wire requestFields src ++ 0 :: rest) =
      parse requestFields (wire requestFields src) := by
    rw [entered_append hzero]
    exact congrArg (parse requestFields) (List.append_nil _)
  obtain ⟨d, s, hd, hsame⟩ := decode_wire requestFields_ok requestFields_ok hself src .zero
    (length_request src) []
  obtain ⟨hstruct, hok⟩ := pbDecode_on requestFields (wire requestFields src) []
  rw [hd] at hstruct hok
  refine ⟨?_, ?_, ?_⟩
  · rw [← answer_entered, hentered, ← hstruct, answer_same hsame]
  · rw [hentered]
    exact hok.symm
  · rw [hentered, ← hstruct]
    exact hsame.1.symm

/-- **A remote call is a call**: a client that encodes its struct with nanopb, and puts a zero byte
behind it, has the same frames written as if it had passed the struct to `handle_rpc_request`. The
reply is its id, if there is memory for it. This is so unless an empty submessage is written: its
length is a zero byte, which would end the request. -/
theorem remote_call (mallocOk : Bool) (src : PbStruct) (bufsize : ℕ) (rest : List UInt8)
    (hroom : (wire requestFields src).length ≤ bufsize) (hfull : ¬ Hollow requestFields src) :
    ∃ buf out, pbEncode (pbOstreamFromBuffer bufsize) requestFields src = (.ok (), buf) ∧
      performRpcRequest mallocOk (some (buf.state ++ 0 :: rest)) = some out ∧
      out.decoded = true ∧ frames (handleRpcRequest (rpcRequest src)) = some out.frames ∧
      out.request.id = src.num 1 ∧
      out.reply = if mallocOk ∨ src.num 1 = 0 then
        some ((responseBytes (src.num 1)).length, responseBytes (src.num 1)) else none := by
  have hbytes : ((pbOstreamFromBuffer bufsize).wrote (wire requestFields src)).state =
      wire requestFields src := List.nil_append _
  obtain ⟨hanswer, hwhole, hid⟩ := entered_wire hfull rest
  refine ⟨_, _, pbEncode_room requestFields_ok (length_request src) hroom,
    performRpcRequest_eq mallocOk (by simp), ?_, ?_, ?_, ?_⟩
  · rw [hbytes]
    exact hwhole
  · rw [hbytes, (handleRpcRequest_does (rpcRequest src)).frames, ← hanswer]
    rfl
  · rw [hbytes]
    exact hid
  · rw [hbytes, reply_eq, ← hid]
    rfl

/-- A drive, as a struct. -/
theorem remote_call_drive : ∃ buf out,
    pbEncode (pbOstreamFromBuffer 64) requestFields
      (((PbStruct.zero.setNum 1 7).setNum 0 3).setSub 3
        ((PbStruct.zero.setNum 0 1).setSub 1 ((PbStruct.zero.setNum 1 100).setNum 2 1))) =
      (.ok (), buf) ∧
    performRpcRequest true (some (buf.state ++ 0 :: [])) = some out ∧
    out.frames = [[137, 0, 100, 0, 1]] ∧ out.reply = some (2, [0x08, 7]) := by
  obtain ⟨buf, out, hbuf, hout, -, hframes, -, hreply⟩ := remote_call true
    (((PbStruct.zero.setNum 1 7).setNum 0 3).setSub 3
      ((PbStruct.zero.setNum 0 1).setSub 1 ((PbStruct.zero.setNum 1 100).setNum 2 1))) 64 []
    (by decide) (by decide)
  refine ⟨buf, out, hbuf, hout, ?_, hreply.trans (by decide)⟩
  exact (Option.some.inj hframes).symm

/-! ### Two encoders -/

def bodyStruct : Delivery.Body → PbStruct
  | .start | .power => .zero
  | .baud e | .mode e | .clean e => PbStruct.zero.setNum 1 e.toUInt32
  | .drive velocity radius => (PbStruct.zero.setNum 1 velocity.1).setNum 2 radius.1
  | .play song => PbStruct.zero.setNum 1 song.toUInt32

def messageStruct (m : Delivery.Message) : PbStruct :=
  ((PbStruct.zero.setNum 1 m.id).setNum 0 m.body.outer.toUInt32).setSub m.body.outer
    ((PbStruct.zero.setNum 0 m.body.member.toUInt32).setSub m.body.member (bodyStruct m.body))

def EnumNonneg : Delivery.Body → Prop
  | .baud e | .mode e | .clean e => 0 ≤ e.toInt
  | .start | .power | .drive _ _ | .play _ => True

lemma fieldWire_number (tag : ℕ) (src : PbStruct) :
    fieldWire (.uint32 tag) src = Delivery.encodeScalar tag (src.num tag).toNat := by
  simp [fieldWire, pbCheckProto3DefaultValue, Delivery.encodeScalar, ← UInt32.toNat_inj]

lemma fieldWire_member (tag : ℕ) (entries : List PbField) (src : PbStruct) :
    fieldWire (.oneof tag entries) src =
      if src.num 0 = tag.toUInt32 then Delivery.encodeSub tag (wire entries (src.sub tag))
      else [] := rfl

lemma toNat_enum {e : Int32} (h : 0 ≤ e.toInt) : e.toUInt32.toNat = Delivery.enumValue e := by
  have hcond : e.toInt = if 2 * e.toUInt32.toNat < 2 ^ 32 then (e.toUInt32.toNat : ℤ)
      else (e.toUInt32.toNat : ℤ) - (2 ^ 32 : ℕ) := BitVec.toInt_eq_toNat_cond e.toBitVec
  have hlt := e.toUInt32.toNat_lt
  rw [Delivery.enumValue]
  by_cases hpos : 2 * e.toUInt32.toNat < 2 ^ 32
  · rw [if_pos hpos] at hcond
    rw [hcond]
    omega
  · rw [if_neg hpos] at hcond
    omega

lemma wire_leaf (b : Delivery.Body) (h : EnumNonneg b) :
    wire b.fields (bodyStruct b) = b.leaf := by
  have hone : ∀ v : UInt32, wire (scalarFields 1) (PbStruct.zero.setNum 1 v) =
      Delivery.encodeScalar 1 v.toNat := by
    intro v
    show fieldWire (.uint32 1) (PbStruct.zero.setNum 1 v) ++ [] = _
    rw [List.append_nil, fieldWire_number, num_setNum, if_pos rfl]
  cases b with
  | start => rfl
  | power => rfl
  | baud e => exact (hone e.toUInt32).trans (congrArg _ (toNat_enum h))
  | mode e => exact (hone e.toUInt32).trans (congrArg _ (toNat_enum h))
  | clean e => exact (hone e.toUInt32).trans (congrArg _ (toNat_enum h))
  | drive velocity radius =>
    show fieldWire (.uint32 1) _ ++ (fieldWire (.uint32 2) _ ++ []) = _
    rw [List.append_nil, fieldWire_number, fieldWire_number]
    rfl
  | play song => exact (hone song.toUInt32).trans (congrArg _ (UInt8.toNat_toUInt32 song))

/-- Only the member that is selected is written, of a table of members. -/
lemma wire_members {fields : List PbField} (hok : TableOk fields)
    (hall : ∀ f ∈ fields, ∃ tag entries, f = .oneof tag entries) {tag : ℕ}
    {entries : List PbField} (hmem : .oneof tag entries ∈ fields) {src : PbStruct}
    (hsel : src.num 0 = tag.toUInt32) :
    wire fields src = Delivery.encodeSub tag (wire entries (src.sub tag)) := by
  obtain ⟨pre, post, rfl, hpre, hpost⟩ := table_split hok hmem
  have hnone : ∀ others : List PbField, (∀ f ∈ others, f ∈ pre ++ .oneof tag entries :: post) →
      (∀ f ∈ others, f.tag ≠ tag) → wire others src = [] := by
    intro others hsub hne
    induction others with
    | nil => rfl
    | cons f others ih =>
      have hf := hsub f (by simp)
      obtain ⟨t, es, rfl⟩ := hall f hf
      have hne' : src.num 0 ≠ t.toUInt32 := fun he => hne _ (by simp)
        (tag_injective (hok.all _ hf) (hok.all _ hmem) (he.symm.trans hsel))
      show fieldWire (.oneof t es) src ++ wire others src = []
      rw [fieldWire_member, if_neg hne', ih (fun f hf => hsub f (by simp [hf])) fun f hf =>
        hne f (by simp [hf])]
      rfl
  have hsplit : ∀ pre' : List PbField, wire (pre' ++ .oneof tag entries :: post) src =
      wire pre' src ++ (fieldWire (.oneof tag entries) src ++ wire post src) := by
    intro pre'
    induction pre' with
    | nil => rfl
    | cons f pre' ih =>
      show fieldWire f src ++ wire (pre' ++ _) src = (fieldWire f src ++ wire pre' src) ++ _
      rw [ih, List.append_assoc]
  rw [hsplit, hnone pre (fun f hf => by simp [hf]) hpre,
    hnone post (fun f hf => by simp [hf]) hpost, fieldWire_member, if_pos hsel, List.nil_append,
    List.append_nil]

def outerFields : Delivery.Body → List PbField
  | .drive _ _ | .play _ => actuatorFields
  | _ => roombaFields

lemma member_mem (b : Delivery.Body) : .oneof b.member b.fields ∈ outerFields b := by
  cases b <;> simp [outerFields, Delivery.Body.member, Delivery.Body.fields, roombaFields,
    actuatorFields]

lemma outer_mem (b : Delivery.Body) : .oneof b.outer (outerFields b) ∈
    [PbField.oneof 2 roombaFields, .oneof 3 actuatorFields] := by
  cases b <;> simp [outerFields, Delivery.Body.outer]

lemma outerFields_members (b : Delivery.Body) :
    ∀ f ∈ outerFields b, ∃ tag entries, f = .oneof tag entries := by
  cases b <;> simp [outerFields, roombaFields, actuatorFields]

/-- **The canonical encoding is what nanopb writes**, for a request that selects one of the seven
operations with an effect, with an enum that is not negative, if it has one. -/
theorem pbEncode_message (m : Delivery.Message) (h : EnumNonneg m.body) (bufsize : ℕ)
    (hroom : m.encode.length ≤ bufsize) :
    ∃ buf, pbEncode (pbOstreamFromBuffer bufsize) requestFields (messageStruct m) = (.ok (), buf) ∧
      buf.state = m.encode ∧ buf.bytesWritten = m.encode.length := by
  have htail : TableOk [PbField.oneof 2 roombaFields, .oneof 3 actuatorFields] :=
    requestFields_ok.tail
  have houter : TableOk (outerFields m.body) := tableOk_oneof (htail.all _ (outer_mem m.body))
  have hbody : wire (outerFields m.body) ((messageStruct m).sub m.body.outer) =
      Delivery.encodeSub m.body.member m.body.leaf := by
    have hsub : (messageStruct m).sub m.body.outer =
        (PbStruct.zero.setNum 0 m.body.member.toUInt32).setSub m.body.member
          (bodyStruct m.body) := by
      simp [messageStruct]
    rw [hsub, wire_members houter (outerFields_members m.body) (member_mem m.body) (by simp),
      sub_setSub, if_pos rfl, wire_leaf m.body h]
  have hwire : wire requestFields (messageStruct m) = m.encode := by
    show fieldWire (.uint32 1) (messageStruct m) ++
      wire [.oneof 2 roombaFields, .oneof 3 actuatorFields] (messageStruct m) = _
    rw [fieldWire_number, wire_members htail (by simp) (outer_mem m.body)
      (by simp [messageStruct]), hbody]
    rfl
  rw [← hwire] at hroom ⊢
  refine ⟨_, pbEncode_room requestFields_ok (length_request _) hroom, ?_, ?_⟩
  · simp [pbOstreamFromBuffer]
  · simp [pbOstreamFromBuffer]

/-- A play, into a buffer of twenty bytes. -/
theorem pbEncode_message_play : ∃ buf,
    pbEncode (pbOstreamFromBuffer 20) requestFields (messageStruct ⟨5, .play 2⟩) =
      (.ok (), buf) ∧ buf.state = [0x08, 0x05, 0x1A, 0x04, 0x62, 0x02, 0x08, 0x02] := by
  obtain ⟨buf, hbuf, hstate, -⟩ :=
    pbEncode_message ⟨5, .play 2⟩ trivial 20 (by decide)
  exact ⟨buf, hbuf, hstate.trans (by decide)⟩

end RoombaBrain.Requests
