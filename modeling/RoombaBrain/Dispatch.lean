import RoombaBrain.Rpc

/-!
What a request asks for, and that the dispatch does it.

The answer to a request is a command sent, an error logged, or nothing at all. `handleRpcRequest`
does what the answer is, whatever the struct holds.
-/

namespace RoombaBrain.Dispatch

open RoombaBrain.PbDecode RoombaBrain.PbMessage RoombaBrain.PbFields RoombaBrain.Roomba
  RoombaBrain.Commands RoombaBrain.RpcSchema RoombaBrain.Rpc

inductive Answer
  | sent (c : Command)
  | logged
  | ignored
  deriving DecidableEq

def declared (command : Option Command) : Answer :=
  match command with
  | some c => .sent c
  | none => .ignored

lemma declared_sent_iff {α : Type} (l : List α) (k : ℕ) (f : α → Command) {n : ℕ}
    (hn : l.length = n) : (∃ c, declared (l[k]?.map f) = .sent c) ↔ k < n := by
  subst hn
  by_cases h : k < l.length <;> simp [declared, h]

lemma declared_ignored_iff {α : Type} (l : List α) (k : ℕ) (f : α → Command) {n : ℕ}
    (hn : l.length = n) : declared (l[k]?.map f) = .ignored ↔ n ≤ k := by
  subst hn
  by_cases h : k < l.length
  · simp [declared, h]
  · simp only [declared, h, not_false_eq_true, getElem?_neg, Option.map_none, true_iff]
    omega

/-- A number that has an image of 16 bits: below 2^16, or the sign extension of a negative one. -/
def Image16 (v : UInt32) : Prop := v.toNat < 2 ^ 16 ∨ 2 ^ 32 - 2 ^ 15 ≤ v.toNat

def word (v : UInt32) : Int16 := v.toUInt16.toInt16

/-- The answer to a member of the oneof of `Roomba`, by the value of its field. -/
def roombaAnswer (member : ℕ) (value : UInt32) : Answer :=
  match member with
  | 1 => .sent .start
  | 2 => declared ([OpBaudCode.baud300, .baud600, .baud1200, .baud2400, .baud4800, .baud9600,
      .baud14400, .baud19200, .baud28800, .baud38400, .baud57600,
      .baud115200][value.toNat]?.map .baud)
  | 3 => declared ([Mode.safe, .full][value.toNat]?.map .mode)
  | 4 => declared ([CleanMode.clean, .max, .spot, .dock][value.toNat]?.map .clean)
  | 7 => .sent .power
  | _ => .logged

def actuatorAnswer (member : ℕ) (value value' : UInt32) : Answer :=
  match member with
  | 1 => .sent (.drive (word value) (word value'))
  | 12 => .sent (.play value.toUInt8)
  | 2 | 3 | 4 | 5 | 6 | 8 | 9 | 11 => .ignored
  | _ => .logged

def answerRoomba (roomba : RpcRoomba) : Answer :=
  roombaAnswer roomba.whichRequest.toNat <|
    match roomba.whichRequest.toNat with
    | 2 => roomba.baud.rate
    | 3 => roomba.mode.mode
    | _ => roomba.clean.mode

def answerActuator (actuator : RpcActuator) : Answer :=
  match actuator.whichRequest.toNat with
  | 1 => actuatorAnswer 1 actuator.drive.velocity actuator.drive.radius
  | member => actuatorAnswer member actuator.play.songNumber 0

def answer (request : RpcRequest) : Answer :=
  match request.whichRequest.toNat with
  | 2 => answerRoomba request.roomba
  | 3 => answerActuator request.actuator
  | _ => .logged

/-! ### The dispatch -/

/-- The call sends the command: with its opcode, the number of arguments the table asks for, and
the arguments that narrow to its own. -/
structure Sends (call : Call) (c : Command) : Prop where
  op : call.op = c.op
  nargs : (opcodes call.op).nargs = call.len
  len : call.len.toInt = call.args.length
  args : call.args.map charOf = c.args

def Does (actions : List Action) : Answer → Prop
  | .sent c => ∃ call, actions = [.sendRoombaCmd call] ∧ Sends call c
  | .logged => ∃ format which, actions = [.espLoge format which]
  | .ignored => actions = []

lemma does_mode (mode : RpcModeRequest) :
    Does (handleRpcRoombaMode mode) (roombaAnswer 3 mode.mode) := by
  simp only [handleRpcRoombaMode, roombaAnswer]
  rcases mode.mode.toNat with _ | _ | n
  · exact ⟨_, rfl, rfl, rfl, rfl, rfl⟩
  · exact ⟨_, rfl, rfl, rfl, rfl, rfl⟩
  · rfl

lemma does_clean (clean : RpcCleanRequest) :
    Does (handleRpcRoombaClean clean) (roombaAnswer 4 clean.mode) := by
  simp only [handleRpcRoombaClean, roombaAnswer]
  rcases clean.mode.toNat with _ | _ | _ | _ | n
  · exact ⟨_, rfl, rfl, rfl, rfl, rfl⟩
  · exact ⟨_, rfl, rfl, rfl, rfl, rfl⟩
  · exact ⟨_, rfl, rfl, rfl, rfl, rfl⟩
  · exact ⟨_, rfl, rfl, rfl, rfl, rfl⟩
  · rfl

lemma does_sendBaud (code : OpBaudCode) : Does (sendBaud code) (.sent (.baud code)) := by
  refine ⟨_, rfl, rfl, rfl, rfl, ?_⟩
  cases code <;> rfl

lemma does_baud (baud : RpcBaudRequest) :
    Does (handleRpcRoombaBaud baud) (roombaAnswer 2 baud.rate) := by
  simp only [handleRpcRoombaBaud, roombaAnswer]
  rcases baud.rate.toNat with _ | _ | _ | _ | _ | _ | _ | _ | _ | _ | _ | _ | n
  all_goals first | exact does_sendBaud _ | rfl

lemma does_roomba (roomba : RpcRoomba) : Does (handleRpcRoomba roomba) (answerRoomba roomba) := by
  unfold handleRpcRoomba answerRoomba
  rcases roomba.whichRequest.toNat with _ | _ | _ | _ | _ | _ | _ | _ | n
  · exact ⟨_, _, rfl⟩
  · exact ⟨_, rfl, rfl, rfl, rfl, rfl⟩
  · exact does_baud roomba.baud
  · exact does_mode roomba.mode
  · exact does_clean roomba.clean
  · exact ⟨_, _, rfl⟩
  · exact ⟨_, _, rfl⟩
  · exact ⟨_, rfl, rfl, rfl, rfl, rfl⟩
  · exact ⟨_, _, rfl⟩

lemma bytesOf_word (v : UInt32) :
    Command.bytesOf (word v) = [(v.toNat / 256).toUInt8, v.toNat.toUInt8] := by
  have hhi : (v.toUInt16 >>> 8).toUInt8 = (v.toNat / 256).toUInt8 := by
    rw [← UInt8.toNat_inj, UInt16.toNat_toUInt8, UInt16.toNat_shiftRight, UInt32.toNat_toUInt16,
      Nat.shiftRight_eq_div_pow]
    simp only [Nat.toUInt8, UInt8.toNat_ofNat']
    show v.toNat % 65536 / 256 % 256 = v.toNat / 256 % 256
    omega
  have hlo : v.toUInt16.toUInt8 = v.toNat.toUInt8 := by
    rw [← UInt8.toNat_inj, UInt16.toNat_toUInt8, UInt32.toNat_toUInt16]
    simp only [Nat.toUInt8, UInt8.toNat_ofNat']
    omega
  exact congrArg₂ (fun a b => [a, b]) hhi hlo

/-- `HI` and `LO`, narrowed to `char`, are these bytes. -/
lemma hi_lo_eq (v : UInt32) :
    [charOf (hi v).toInt32, charOf (lo v).toInt32] = Command.bytesOf (word v) := by
  have hhi : (v >>> 8).toUInt8 = (v.toNat / 256).toUInt8 := by
    rw [← UInt8.toNat_inj, UInt32.toNat_toUInt8, UInt32.toNat_shiftRight,
      Nat.shiftRight_eq_div_pow]
    simp only [Nat.toUInt8, UInt8.toNat_ofNat']
    rfl
  have hlo : (v &&& 0xFF).toUInt8 = v.toNat.toUInt8 := by
    rw [← UInt8.toNat_inj, UInt32.toNat_toUInt8, UInt32.toNat_and]
    simp only [Nat.toUInt8, UInt8.toNat_ofNat']
    show (v.toNat &&& (2 ^ 8 - 1)) % 256 = v.toNat % 256
    rw [Nat.and_two_pow_sub_one_eq_mod]
    omega
  rw [bytesOf_word]
  exact congrArg₂ (fun a b => [a, b]) hhi hlo

lemma charOf_byte (b : UInt8) : charOf b.toUInt32.toInt32 = b := UInt8.toUInt8_toUInt32 b

lemma does_actuator (actuator : RpcActuator) :
    Does (handleRpcActuator actuator) (answerActuator actuator) := by
  unfold handleRpcActuator answerActuator
  rcases actuator.whichRequest.toNat with _ | _ | _ | _ | _ | _ | _ | _ | _ | _ | _ | _ | _ | n
  · exact ⟨_, _, rfl⟩
  · refine ⟨_, rfl, rfl, rfl, rfl, ?_⟩
    exact congrArg₂ (· ++ ·) (hi_lo_eq actuator.drive.velocity) (hi_lo_eq actuator.drive.radius)
  · rfl
  · rfl
  · rfl
  · rfl
  · rfl
  · exact ⟨_, _, rfl⟩
  · rfl
  · rfl
  · exact ⟨_, _, rfl⟩
  · rfl
  · refine ⟨_, rfl, rfl, rfl, rfl, ?_⟩
    exact congrArg (fun b => [b]) (charOf_byte actuator.play.songNumber.toUInt8)
  · exact ⟨_, _, rfl⟩

/-- **The dispatch does what the answer is.** -/
theorem handleRpcRequest_does (request : RpcRequest) :
    Does (handleRpcRequest request) (answer request) := by
  unfold handleRpcRequest answer
  rcases request.whichRequest.toNat with _ | _ | _ | _ | n
  · exact ⟨_, _, rfl⟩
  · exact ⟨_, _, rfl⟩
  · exact does_roomba request.roomba
  · exact does_actuator request.actuator
  · exact ⟨_, _, rfl⟩

/-! ### Frames -/

def Answer.frames : Answer → List (List UInt8)
  | .sent c => [c.frame]
  | .logged | .ignored => []

lemma Sends.frame {call : Call} {c : Command} (h : Sends call c) :
    sendRoombaCmd call.op call.len call.args = some c.frame := by
  have hlen := congrArg List.length h.args
  have hle : c.args.length ≤ 4 := by
    rcases c with _ | _ | _ | (_ | _) | (_ | _ | _ | _) | _ | _ <;>
      simp [Command.args, Command.bytesOf]
  rw [List.length_map] at hlen
  rw [sendRoombaCmd_eq call.op h.len (by omega), h.args, h.op]
  rfl

lemma Does.frames {actions : List Action} {a : Answer} (h : Does actions a) :
    Rpc.frames actions = some a.frames := by
  cases a with
  | sent c =>
    obtain ⟨call, rfl, hc⟩ := h
    simp [Rpc.frames, Rpc.calls, Action.call?, hc.frame, Answer.frames]
  | logged =>
    obtain ⟨format, which, rfl⟩ := h
    rfl
  | ignored =>
    cases h
    rfl

/-- An answer comes with the one call that sends it, or with none and no frame. -/
lemma Does.calls {actions : List Action} {a : Answer} (h : Does actions a) :
    (∃ c call, a = .sent c ∧ Rpc.calls actions = [call] ∧ Sends call c) ∨
      (a.frames = [] ∧ Rpc.calls actions = []) := by
  cases a with
  | sent c =>
    obtain ⟨call, rfl, hc⟩ := h
    exact Or.inl ⟨c, call, rfl, rfl, hc⟩
  | logged =>
    obtain ⟨format, which, rfl⟩ := h
    exact Or.inr ⟨rfl, rfl⟩
  | ignored =>
    cases h
    exact Or.inr ⟨rfl, rfl⟩

/-! ### The fields on the wire -/

def lastValue (tag : ℕ) (nodes : List Node) : UInt32 := (lastStored tag nodes).getD 0

def wireAnswer (nodes : List Node) : Answer :=
  match lastMember nodes with
  | some (2, inner) =>
    match lastMember inner with
    | some (member, leaf) => roombaAnswer member (lastValue 1 leaf)
    | none => .logged
  | some (3, inner) =>
    match lastMember inner with
    | some (member, leaf) => actuatorAnswer member (lastValue 1 leaf) (lastValue 2 leaf)
    | none => .logged
  | _ => .logged

lemma struct_member {fields : List PbField} {nodes : List Node} (hf : OneofOnly fields)
    (htag : ∀ field ∈ fields, field.tag < 16) (hn : ∀ node ∈ nodes, FieldOf fields node) :
    (lastMember nodes = none ∧ ((storeAll nodes .zero).num 0).toNat = 0) ∨
    ∃ tag entries inner, lastMember nodes = some (tag, inner) ∧
      ((storeAll nodes .zero).num 0).toNat = tag ∧
      (storeAll nodes .zero).sub tag = storeAll inner .zero ∧
      .oneof tag entries ∈ fields ∧ ∀ node ∈ inner, FieldOf entries node := by
  have hstore := storeAll_member hf hn
  rcases hlast : lastMember nodes with _ | ⟨tag, inner⟩
  · rw [hlast] at hstore
    exact Or.inl ⟨rfl, by rw [hstore]; rfl⟩
  · rw [hlast] at hstore
    obtain ⟨entries, hmem, hin⟩ := lastMember_of hn hlast
    have hlt : tag < 16 := htag _ hmem
    refine Or.inr ⟨tag, entries, inner, rfl, ?_, hstore.2, hmem, hin⟩
    rw [hstore.1]
    simp only [Nat.toUInt32, UInt32.toNat_ofNat']
    omega

lemma num_leaf (leaf : List Node) (slot : ℕ) :
    (storeAll leaf .zero).num slot = lastValue slot leaf := num_storeAll leaf .zero slot

lemma answerRoomba_eq {nodes : List Node} (hn : ∀ node ∈ nodes, FieldOf roombaFields node) :
    answerRoomba (rpcRoomba (storeAll nodes .zero)) =
      match lastMember nodes with
      | some (member, leaf) => roombaAnswer member (lastValue 1 leaf)
      | none => .logged := by
  rcases struct_member roombaFields_oneofOnly (by decide) hn with
    ⟨hlast, hwhich⟩ | ⟨member, entries, leaf, hlast, hwhich, hsub, hmem, -⟩
  · simp only [answerRoomba, rpcRoomba, hwhich, hlast]
    rfl
  · simp only [answerRoomba, rpcRoomba, hwhich, hlast]
    simp only [roombaFields, List.mem_cons, PbField.oneof.injEq, List.not_mem_nil, or_false] at hmem
    rcases hmem with ⟨rfl, -⟩ | ⟨rfl, -⟩ | ⟨rfl, -⟩ | ⟨rfl, -⟩ | ⟨rfl, -⟩ | ⟨rfl, -⟩ | ⟨rfl, -⟩ <;>
      simp only [hsub, num_leaf] <;> rfl

lemma answerActuator_eq {nodes : List Node} (hn : ∀ node ∈ nodes, FieldOf actuatorFields node) :
    answerActuator (rpcActuator (storeAll nodes .zero)) =
      match lastMember nodes with
      | some (member, leaf) => actuatorAnswer member (lastValue 1 leaf) (lastValue 2 leaf)
      | none => .logged := by
  rcases struct_member actuatorFields_oneofOnly (by decide) hn with
    ⟨hlast, hwhich⟩ | ⟨member, entries, leaf, hlast, hwhich, hsub, hmem, -⟩
  · simp only [answerActuator, rpcActuator, hwhich, hlast]
    rfl
  · simp only [answerActuator, rpcActuator, hwhich, hlast]
    simp only [actuatorFields, List.mem_cons, PbField.oneof.injEq, List.not_mem_nil, or_false]
      at hmem
    rcases hmem with ⟨rfl, -⟩ | ⟨rfl, -⟩ | ⟨rfl, -⟩ | ⟨rfl, -⟩ | ⟨rfl, -⟩ | ⟨rfl, -⟩ | ⟨rfl, -⟩ |
      ⟨rfl, -⟩ | ⟨rfl, -⟩ | ⟨rfl, -⟩ | ⟨rfl, -⟩ | ⟨rfl, -⟩ <;>
      simp only [hsub, num_leaf] <;> rfl

/-- **The answer to the struct is the answer to the fields that were stored to it.** -/
theorem answer_storeAll {nodes : List Node} (hn : ∀ node ∈ nodes, FieldOf requestFields node) :
    answer (rpcRequest (storeAll nodes .zero)) = wireAnswer nodes := by
  rcases struct_member requestFields_oneofOnly (by decide) hn with
    ⟨hlast, hwhich⟩ | ⟨tag, entries, inner, hlast, hwhich, hsub, hmem, hin⟩
  · simp only [answer, rpcRequest, wireAnswer, hwhich, hlast]
  · simp only [requestFields, List.mem_cons, PbField.oneof.injEq, List.not_mem_nil, or_false,
      reduceCtorEq, false_or] at hmem
    rcases hmem with ⟨rfl, rfl⟩ | ⟨rfl, rfl⟩
    · simp only [answer, rpcRequest, wireAnswer, hwhich, hlast, hsub]
      exact answerRoomba_eq hin
    · simp only [answer, rpcRequest, wireAnswer, hwhich, hlast, hsub]
      exact answerActuator_eq hin

end RoombaBrain.Dispatch
