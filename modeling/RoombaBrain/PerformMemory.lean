import RoombaBrain.PbEncodeMemory
import RoombaBrain.Requests
import RoombaBrain.Orders

/-!
Requests in memory.

`perform_rpc_request` has the request and the response on its stack. The members of the unions lie
over each other there, and the handlers look at those that `which_request` tells. What was on the
stack before does not matter.
-/

namespace RoombaBrain.PerformMemory

open RoombaBrain.Memory RoombaBrain.PbStream RoombaBrain.PbDecode RoombaBrain.PbEncode
  RoombaBrain.PbWire RoombaBrain.PbSame RoombaBrain.PbIter RoombaBrain.PbStructs
  RoombaBrain.PbDecodeMemory RoombaBrain.PbEncodeMemory RoombaBrain.RpcSchema RoombaBrain.Rpc
  RoombaBrain.Perform RoombaBrain.Requests RoombaBrain.Roomba RoombaBrain.Endpoint

variable {t : Target} (s : Structs t)

/-! ### The structs -/

/-- The members of the `RPC_Roomba` at an address. Those of the other requests are there as well,
as numbers that stand for nothing. -/
def rpcRoombaAt (a : ℕ) (mem : Mem) : RpcRoomba where
  whichRequest := whichAt s roombaFields a mem
  baud := ⟨numAt s baudRequestFields (a + offsetOf s roombaFields 2) mem 1⟩
  mode := ⟨numAt s modeRequestFields (a + offsetOf s roombaFields 3) mem 1⟩
  clean := ⟨numAt s cleanRequestFields (a + offsetOf s roombaFields 4) mem 1⟩

def rpcActuatorAt (a : ℕ) (mem : Mem) : RpcActuator where
  whichRequest := whichAt s actuatorFields a mem
  drive := ⟨numAt s driveRequestFields (a + offsetOf s actuatorFields 1) mem 1,
    numAt s driveRequestFields (a + offsetOf s actuatorFields 1) mem 2⟩
  play := ⟨numAt s playRequestFields (a + offsetOf s actuatorFields 12) mem 1⟩

def rpcRequestAt (a : ℕ) (mem : Mem) : RpcRequest where
  id := numAt s requestFields a mem 1
  whichRequest := whichAt s requestFields a mem
  roomba := rpcRoombaAt s (a + offsetOf s requestFields 2) mem
  actuator := rpcActuatorAt s (a + offsetOf s requestFields 3) mem

/-! ### The request -/

/-- `RPC_Request_init_zero`: the union as far as its first member goes. Behind it everything is as
it was. -/
def rpcRequestInitZero (a : ℕ) (mem : Mem) : Mem :=
  let mem := zero mem (a + offsetOf s requestFields 2) (s.sizeof roombaFields)
  let mem := zero mem (a + s.which requestFields) t.sizeBytes
  zero mem (a + offsetOf s requestFields 1) 4

/-- `RPC_Response_init_zero` -/
def rpcResponseInitZero (b : ℕ) (mem : Mem) : Mem :=
  let mem := zero mem (b + offsetOf s responseFields 2)
    ((memberOf s responseFields 2).elim 0 Member.itemSize)
  zero mem (b + offsetOf s responseFields 1) 4

/-- The stack that a call of `perform_rpc_request` finds, with the places of its two structs, and
of the `fixed_count_size` of each nested call of `pb_decode_noinit`. -/
structure Stack (s s' : Structs t) where
  mem : Mem
  request : ℕ
  response : ℕ
  countAt : ℕ → ℕ
  apart : Apart request (s.sizeof requestFields) response (s'.sizeof responseFields)

variable {s} in
/-- `perform_rpc_request` with `rpc_request` and `resp` on the stack, which are structs of two
headers. There is no outcome when it calls a callback. -/
def performRpcRequestMem {s' : Structs t} (stack : Stack s s') (mallocOk : Bool)
    (data : Option (List UInt8)) : Option Outcome := do
  let data ← data
  let bufsize ← strlen data
  let mem := rpcRequestInitZero s stack.request stack.mem
  let (mem, r) ← pbDecodeMem s stack.countAt (pbIstreamFromBuffer data bufsize) requestFields
    stack.request mem
  let request := rpcRequestAt s stack.request mem
  let actions := handleRpcRequest request
  let frames ← frames actions
  let mem := rpcResponseInitZero s' stack.response mem
  let id := numAt s requestFields stack.request mem 1
  let mem := store mem (stack.response + offsetOf s' responseFields 1) 4 id.toNat
  let (r', ostream) ← pbEncodeMem s' mem responseFields stack.response (pbOstreamFromBuffer respBuf)
  some {
    decoded := succeeded r
    request := request
    actions := actions
    frames := frames
    log := actions.map Action.log
    encoded := succeeded r'
    reply := if mallocOk ∨ ostream.state = [] then some (ostream.bytesWritten, ostream.state)
      else none }

/-! ### What is read of a request -/

variable {s} {a b : ℕ} {mem : Mem} {d : PbStruct}

lemma selected_num {fields entries : List PbField} {tag n : ℕ} (hlaid : AllLaidOut s fields)
    (hok : TableOk fields) (h : Holds s fields a mem d) (hmem : .oneof tag entries ∈ fields)
    (hsel : d.num 0 = tag.toUInt32) (hnum : .uint32 n ∈ entries) :
    numAt s entries (a + offsetOf s fields tag) mem n = (d.sub tag).num n :=
  numAt_eq (selected_holds h hlaid.laidOut hok hmem hsel) (hlaid.oneof hmem).laidOut
    (tableOk_oneof (hok.all _ hmem)) hnum

/-- The handlers for the Roomba look at the member that `which_request` tells. -/
lemma handleRpcRoomba_congr {roomba roomba' : RpcRoomba}
    (hwhich : roomba.whichRequest = roomba'.whichRequest)
    (hbaud : roomba'.whichRequest = 2 → roomba.baud = roomba'.baud)
    (hmode : roomba'.whichRequest = 3 → roomba.mode = roomba'.mode)
    (hclean : roomba'.whichRequest = 4 → roomba.clean = roomba'.clean) :
    handleRpcRoomba roomba = handleRpcRoomba roomba' := by
  unfold handleRpcRoomba
  rw [hwhich]
  split
  · next hsel => rw [hmode (UInt32.toNat_inj.mp hsel)]
  · rfl
  · next hsel => rw [hclean (UInt32.toNat_inj.mp hsel)]
  · rfl
  · next hsel => rw [hbaud (UInt32.toNat_inj.mp hsel)]
  · rfl

lemma handleRpcActuator_congr {actuator actuator' : RpcActuator}
    (hwhich : actuator.whichRequest = actuator'.whichRequest)
    (hdrive : actuator'.whichRequest = 1 → actuator.drive = actuator'.drive)
    (hplay : actuator'.whichRequest = 12 → actuator.play = actuator'.play) :
    handleRpcActuator actuator = handleRpcActuator actuator' := by
  unfold handleRpcActuator
  rw [hwhich]
  split
  · rfl
  · next hsel => rw [hdrive (UInt32.toNat_inj.mp hsel)]
  · rfl
  · rfl
  · rfl
  · rfl
  · rfl
  · rfl
  · next hsel => rw [hplay (UInt32.toNat_inj.mp hsel)]
  · rfl
  · rfl

lemma handleRpcRoomba_at (hlaid : AllLaidOut s roombaFields) (hok : TableOk roombaFields)
    (h : Holds s roombaFields a mem d) :
    handleRpcRoomba (rpcRoombaAt s a mem) = handleRpcRoomba (rpcRoomba d) := by
  have hstart : .oneof 1 startRequestFields ∈ roombaFields := by simp [roombaFields]
  have hbaud : .oneof 2 baudRequestFields ∈ roombaFields := by simp [roombaFields]
  have hmode : .oneof 3 modeRequestFields ∈ roombaFields := by simp [roombaFields]
  have hclean : .oneof 4 cleanRequestFields ∈ roombaFields := by simp [roombaFields]
  have hnum : .uint32 1 ∈ scalarFields 1 := by simp [scalarFields]
  apply handleRpcRoomba_congr
  · exact whichAt_eq h hlaid.laidOut hok hstart
  · intro hsel
    exact congrArg RpcBaudRequest.mk (selected_num hlaid hok h hbaud hsel hnum)
  · intro hsel
    exact congrArg RpcModeRequest.mk (selected_num hlaid hok h hmode hsel hnum)
  · intro hsel
    exact congrArg RpcCleanRequest.mk (selected_num hlaid hok h hclean hsel hnum)

lemma handleRpcActuator_at (hlaid : AllLaidOut s actuatorFields) (hok : TableOk actuatorFields)
    (h : Holds s actuatorFields a mem d) :
    handleRpcActuator (rpcActuatorAt s a mem) = handleRpcActuator (rpcActuator d) := by
  have hdrive : .oneof 1 driveRequestFields ∈ actuatorFields := by simp [actuatorFields]
  have hplay : .oneof 12 playRequestFields ∈ actuatorFields := by simp [actuatorFields]
  apply handleRpcActuator_congr
  · exact whichAt_eq h hlaid.laidOut hok hdrive
  · intro hsel
    exact congrArg₂ RpcDriveRequest.mk
      (selected_num hlaid hok h hdrive hsel (by simp [driveRequestFields, scalarFields]))
      (selected_num hlaid hok h hdrive hsel (by simp [driveRequestFields, scalarFields]))
  · intro hsel
    exact congrArg RpcPlayRequest.mk
      (selected_num hlaid hok h hplay hsel (by simp [playRequestFields, scalarFields]))

/-- A request is handled as the struct that the memory holds. -/
lemma handleRpcRequest_at (hlaid : AllLaidOut s requestFields)
    (h : Holds s requestFields a mem d) :
    handleRpcRequest (rpcRequestAt s a mem) = handleRpcRequest (rpcRequest d) := by
  have hok := requestFields_ok
  have hroomba : .oneof 2 roombaFields ∈ requestFields := by simp [requestFields]
  have hactuator : .oneof 3 actuatorFields ∈ requestFields := by simp [requestFields]
  have hwhich : (rpcRequestAt s a mem).whichRequest = (rpcRequest d).whichRequest :=
    whichAt_eq h hlaid.laidOut hok hroomba
  unfold handleRpcRequest
  rw [hwhich]
  split
  · next hsel =>
    have hsel : d.num 0 = 2 := UInt32.toNat_inj.mp hsel
    exact handleRpcRoomba_at (hlaid.oneof hroomba) (tableOk_oneof (hok.all _ hroomba))
      (selected_holds h hlaid.laidOut hok hroomba hsel)
  · next hsel =>
    have hsel : d.num 0 = 3 := UInt32.toNat_inj.mp hsel
    exact handleRpcActuator_at (hlaid.oneof hactuator) (tableOk_oneof (hok.all _ hactuator))
      (selected_holds h hlaid.laidOut hok hactuator hsel)
  · rfl

/-! ### The outcome -/

/-- What `rpc_request` is initialised with holds a struct of zeros, whatever the union has behind
its first member. -/
lemma rpcRequestInitZero_holds (hlaid : AllLaidOut s requestFields) (a : ℕ) (mem : Mem) :
    Holds s requestFields a (rpcRequestInitZero s a mem) .zero := by
  have hlaid := hlaid.laidOut
  have hfirst : requestFields[0]? = some (.uint32 1) := rfl
  obtain ⟨id, hid⟩ := hlaid.exists_member hfirst
  have hoffset : offsetOf s requestFields 1 = id.offset :=
    offsetOf_eq hlaid requestFields_ok hfirst hid
  obtain ⟨-, -, -, -, hsize⟩ := hlaid.memberFor hfirst hid
  refine holds_iff.mpr fun i field m hf hm => ?_
  have hmember := List.mem_of_getElem? hm
  have hwhich : m.htype = .oneof → load (rpcRequestInitZero s a mem)
      (a + m.offset + m.distance : ℤ).toNat t.sizeBytes = 0 := by
    intro honeof
    have hapart := (hlaid.which m hmember honeof).2.2 id (List.mem_of_getElem? hid)
    rw [hsize] at hapart
    unfold rpcRequestInitZero
    rw [hlaid.which_at hmember honeof, hoffset,
      ((zero_within _ _ _).agree (Apart.shift hapart.symm a)).load_eq]
    exact load_zero (Nat.le_refl _) (Nat.le_refl _)
  have hfor := hlaid.memberFor hf hm
  match i, hf with
  | 0, hf =>
    cases hf
    rw [hid] at hm
    cases hm
    unfold rpcRequestInitZero
    rw [hoffset]
    exact load_zero (Nat.le_refl _) (Nat.le_refl _)
  | 1, hf =>
    cases hf
    exact ⟨hwhich hfor.2.2.1, fun hsel => absurd hsel (by decide)⟩
  | 2, hf =>
    cases hf
    exact ⟨hwhich hfor.2.2.1, fun hsel => absurd hsel (by decide)⟩

lemma responseFields_ok : TableOk responseFields := ⟨by decide, by decide⟩

structure ResponseMembers (s : Structs t) (id result : Member) : Prop where
  first : (s.layout responseFields).members[0]? = some id
  second : (s.layout responseFields).members[1]? = some result
  idOffset : offsetOf s responseFields 1 = id.offset
  resultMember : memberOf s responseFields 2 = some result
  apart : Apart id.offset 4 result.offset result.itemSize
  idInside : id.offset + 4 ≤ s.sizeof responseFields
  resultInside : result.offset + result.itemSize ≤ s.sizeof responseFields

lemma response_members (hlaid : LaidOut s responseFields) :
    ∃ id result, ResponseMembers s id result := by
  have hfirst : responseFields[0]? = some (.uint32 1) := rfl
  have hsecond : responseFields[1]? = some (.callback 2) := rfl
  obtain ⟨id, hid⟩ := hlaid.exists_member hfirst
  obtain ⟨result, hresult⟩ := hlaid.exists_member hsecond
  obtain ⟨-, -, htype, -, hsize⟩ := hlaid.memberFor hfirst hid
  have hapart := (hlaid.apart_of_ne Nat.one_ne_zero hid hresult).resolve_left (by simp [htype])
  have hinside := hlaid.inside id (List.mem_of_getElem? hid)
  rw [hsize] at hapart hinside
  exact ⟨id, result, hid, hresult, offsetOf_eq hlaid responseFields_ok hfirst hid,
    memberOf_eq hlaid responseFields_ok hsecond hresult, hapart, hinside,
    hlaid.inside result (List.mem_of_getElem? hresult)⟩

lemma response_holds (hlaid : AllLaidOut s responseFields) (b : ℕ) (mem : Mem) (id : UInt32) :
    Holds s responseFields b
      (store (rpcResponseInitZero s b mem) (b + offsetOf s responseFields 1) 4 id.toNat)
      (PbStruct.zero.setNum 1 id) := by
  obtain ⟨number, result, h⟩ := response_members hlaid.laidOut
  have hapart := Apart.shift h.apart b
  refine holds_iff.mpr fun i field m hf hm => ?_
  match i, hf with
  | 0, hf =>
    cases hf
    rw [h.first] at hm
    cases hm
    rw [h.idOffset]
    exact load_store id.toNat_lt
  | 1, hf =>
    cases hf
    rw [h.second] at hm
    cases hm
    unfold fieldHolds rpcResponseInitZero
    rw [h.idOffset, offsetOf, h.resultMember, Option.elim_some, Option.elim_some,
      ((store_within _ _ _ _).agree hapart).load_eq, ((zero_within _ _ _).agree hapart).load_eq]
    exact load_zero (Nat.le_refl _) (Nat.le_refl _)

lemma rpcResponseInitZero_within (hlaid : AllLaidOut s responseFields) (b : ℕ) (mem : Mem) :
    Within b (s.sizeof responseFields) mem (rpcResponseInitZero s b mem) := by
  obtain ⟨number, result, h⟩ := response_members hlaid.laidOut
  have hinside := h.idInside
  have hinside' := h.resultInside
  unfold rpcResponseInitZero
  rw [h.idOffset, offsetOf, h.resultMember, Option.elim_some, Option.elim_some]
  exact ((zero_within _ _ _).mono (by omega) (by omega)).trans
    ((zero_within _ _ _).mono (by omega) (by omega))

/-! ### The structs of the ESP32 -/

/-- The size of a member. All but `which_` are aligned to four bytes, and a struct without members
has a byte. -/
def memberSize : PbField → ℕ
  | .uint32 _ => 4
  | .message _ fields | .oneof _ fields =>
    let union := unionSize fields
    max 1 (plainSize fields + if union = 0 then 0 else 4 + (union + 3) / 4 * 4)
  | .callback _ => 8
  | .last => 0
where
  /-- the members before the union -/
  plainSize : List PbField → ℕ
    | [] => 0
    | .oneof _ _ :: fields => plainSize fields
    | field :: fields => memberSize field + plainSize fields
  /-- the largest member of the union -/
  unionSize : List PbField → ℕ
    | [] => 0
    | .oneof tag entries :: fields => max (memberSize (.oneof tag entries)) (unionSize fields)
    | _ :: fields => unionSize fields

def membersFrom (htype : ℕ → Htype) (union : ℕ) : Bool → ℕ → List PbField → List Member
  | _, _, [] => []
  | shared, offset, .oneof tag entries :: fields =>
    ⟨tag, .static, .oneof, union, -4, memberSize (.oneof tag entries), 0, shared⟩ ::
      membersFrom htype union true offset fields
  | shared, offset, .callback tag :: fields =>
    ⟨tag, .callback, htype tag, offset, 0, 8, 0, false⟩ ::
      membersFrom htype union shared (offset + 8) fields
  | shared, offset, field :: fields =>
    ⟨field.tag, .static, .optional, offset, 0, memberSize field, 0, false⟩ ::
      membersFrom htype union shared (offset + memberSize field) fields

instance (t : Target) : DecidableRel (Member.Follows t) := by
  intro b m
  unfold Member.Follows
  infer_instance

/-- Structs on the ESP32: `which_` and the union lie behind the other members. -/
def esp32Structs (htype : ℕ → Htype) : Structs ⟨1, 4⟩ where
  layout fields :=
    let members := membersFrom htype (memberSize.plainSize fields + 4) false 0 fields
    if h : (∀ m ∈ members, m.tag ≠ 0) ∧ members.IsChain (Member.Follows ⟨1, 4⟩) then
      ⟨members, h.1, h.2⟩
    else .empty _
  sizeof fields := memberSize (.message 0 fields)
  which fields := memberSize.plainSize fields

/-- The structs of `request.pb.h`. The callback for the digits is optional, that for the notes of a
song is repeated. -/
def requestStructs : Structs ⟨1, 4⟩ :=
  esp32Structs fun tag => if tag = 2 then .repeated else .optional

/-- The structs of `response.pb.h` -/
def responseStructs : Structs ⟨1, 4⟩ := esp32Structs fun _ => .optional

lemma requestStructs_laidOut : AllLaidOut requestStructs requestFields :=
  allLaidOut_of_check (by decide)

lemma responseStructs_laidOut : AllLaidOut responseStructs responseFields :=
  allLaidOut_of_check (by decide)

/-! ### Performing -/

section
variable {s' : Structs t} (hrequest : AllLaidOut s requestFields)
  (hresponse : AllLaidOut s' responseFields)

include hrequest hresponse

lemma perform_at (stack : Stack s s') (mallocOk : Bool) (data : Option (List UInt8)) :
    ∃ request, performRpcRequestMem stack mallocOk data =
      (performRpcRequest mallocOk data).map fun out => { out with request := request } := by
  rcases data with _ | data
  · exact ⟨rpcRequestAt s stack.request stack.mem, rfl⟩
  rcases hlen : strlen data with _ | bufsize
  · exact ⟨rpcRequestAt s stack.request stack.mem,
      by simp [performRpcRequestMem, performRpcRequest, hlen]⟩
  obtain ⟨mem', hdecode, halong⟩ := decode_along stack.countAt hrequest requestFields_ok
    (rpcRequestInitZero_holds hrequest stack.request stack.mem) (pbIstreamFromBuffer data bufsize)
  have hactions := handleRpcRequest_at hrequest halong.holds
  have hagree := (rpcResponseInitZero_within hresponse stack.response mem').agree stack.apart.symm
  have hmem : .uint32 1 ∈ requestFields := by simp [requestFields]
  have hid := numAt_eq (halong.holds.agree hrequest hagree) hrequest.laidOut requestFields_ok hmem
  have hencode := fun id => encode_message (fun field _ => encodeField_eq s' _ field) hresponse
    responseFields_ok (response_holds hresponse stack.response mem' id)
  refine ⟨rpcRequestAt s stack.request mem', ?_⟩
  simp only [performRpcRequestMem, performRpcRequest, Option.bind_eq_bind, Option.bind_some, hlen,
    hdecode, hactions, hid, hencode, plain]
  rcases frames (handleRpcRequest (rpcRequest _)) with _ | frames
  · rfl
  · rfl

end

/-! ### Runs -/

section
variable {s' : Structs t}

/-- `hnd_roomba_cmd_post` on a stack -/
def hndRoombaCmdPostMem (w : World) (stack : Stack s s') (post : Post) : World :=
  if w.halted then w
  else match performRpcRequestMem stack post.mallocOk (dataAt post.payload post.after) with
    | none => { w with halted := true }
    | some out =>
      { uart := out.frames.foldl uartWriteBytes w.uart
        issued := w.issued ++ calls out.actions
        responses := w.responses ++ (out.reply.map fun r => r.2.take r.1).toList
        halted := out.reply.isNone }

def runMem (visits : List (Stack s s' × Post)) : World :=
  visits.foldl (fun w visit => hndRoombaCmdPostMem w visit.1 visit.2) World.start

lemma hndRoombaCmdPostMem_eq (hrequest : AllLaidOut s requestFields)
    (hresponse : AllLaidOut s' responseFields) (w : World) (stack : Stack s s') (post : Post) :
    hndRoombaCmdPostMem w stack post = hndRoombaCmdPost w post := by
  obtain ⟨request, hperform⟩ := perform_at hrequest hresponse stack post.mallocOk
    (dataAt post.payload post.after)
  unfold hndRoombaCmdPostMem hndRoombaCmdPost
  rw [hperform]
  rcases performRpcRequest post.mallocOk (dataAt post.payload post.after) with _ | out
  · rfl
  · rfl

end

/-- **What is on the stack does not matter**: a request is performed as the model on structs
performs it, and in every run the posts are handled as that model handles them, whatever each of
them finds where its structs are to be. The numbers of one request are never taken for those of
another one, and no callback is called. -/
theorem run_memory (s s' : Structs t) (hrequest : AllLaidOut s requestFields)
    (hresponse : AllLaidOut s' responseFields) :
    (∀ (stack : Stack s s') (mallocOk : Bool) (data : Option (List UInt8)), ∃ request,
      performRpcRequestMem stack mallocOk data =
        (performRpcRequest mallocOk data).map fun out => { out with request := request }) ∧
    ∀ visits : List (Stack s s' × Post), runMem visits = run (visits.map Prod.snd) := by
  refine ⟨perform_at hrequest hresponse, fun visits => ?_⟩
  unfold runMem run
  rw [List.foldl_map]
  simp only [hndRoombaCmdPostMem_eq hrequest hresponse]

/-- A song with two notes, and then a drive with its velocity and radius where the song was. -/
def driveBytes : List UInt8 :=
  [0x08, 0x07, 0x1A, 0x0C, 0x5A, 0x0A, 0x08, 0x03, 0x12, 0x02, 0x08, 0x3C, 0x12, 0x02, 0x08, 0x3E,
    0x1A, 0x07, 0x0A, 0x05, 0x08, 0xC8, 0x01, 0x10, 0x01]

def driveVisit : Stack requestStructs responseStructs × Post :=
  (⟨fun _ => 0xFF, 4096, 8192, fun _ => 12288, by decide⟩, ⟨some driveBytes, [0x00], true⟩)

/-- Two drives. -/
theorem run_memory_drives : (runMem [driveVisit, driveVisit]).uart.stream =
    [137, 0, 200, 0, 1, 137, 0, 200, 0, 1] ∧
      (runMem [driveVisit, driveVisit]).responses = [[0x08, 0x07], [0x08, 0x07]] := by
  have hrun := (run_memory requestStructs responseStructs requestStructs_laidOut
    responseStructs_laidOut).2 [driveVisit, driveVisit]
  have hdone := Orders.foldl_carriesOut (w := World.start) rfl [driveVisit.2, driveVisit.2]
  rw [hrun]
  exact ⟨hdone.stream, hdone.responses⟩

end RoombaBrain.PerformMemory
