import RoombaBrain.Dispatch

/-!
What the Roomba takes from the frame of a request.

Within the range of the wire a frame gives back the operation and the numbers asked for. Nothing
in the dispatch looks at the range: a number outside of it is sent narrowed.
-/

namespace RoombaBrain.RoundTrip

open RoombaBrain.Commands RoombaBrain.RpcSchema RoombaBrain.Rpc RoombaBrain.Dispatch

/-- The value of an enumerator of `RPC_BaudRequest_BaudRate`. -/
def rpcBaudRate : OpBaudCode → UInt32
  | .baud300 => 0
  | .baud600 => 1
  | .baud1200 => 2
  | .baud2400 => 3
  | .baud4800 => 4
  | .baud9600 => 5
  | .baud14400 => 6
  | .baud19200 => 7
  | .baud28800 => 8
  | .baud38400 => 9
  | .baud57600 => 10
  | .baud115200 => 11

def rpcMode : Mode → UInt32
  | .safe => 0
  | .full => 1

def rpcCleanMode : CleanMode → UInt32
  | .clean => 0
  | .max => 1
  | .spot => 2
  | .dock => 3

/-- An unsigned field holds a signed 16-bit number: as its pattern, or sign-extended. -/
def Holds16 (v : UInt32) (x : Int16) : Prop :=
  v = x.toUInt16.toUInt32 ∨ v = x.toInt32.toUInt32

def Asks (request : RpcRequest) : Command → Prop
  | .start => request.whichRequest = 2 ∧ request.roomba.whichRequest = 1
  | .power => request.whichRequest = 2 ∧ request.roomba.whichRequest = 7
  | .baud code => request.whichRequest = 2 ∧ request.roomba.whichRequest = 2 ∧
    request.roomba.baud.rate = rpcBaudRate code
  | .mode m => request.whichRequest = 2 ∧ request.roomba.whichRequest = 3 ∧
    request.roomba.mode.mode = rpcMode m
  | .clean m => request.whichRequest = 2 ∧ request.roomba.whichRequest = 4 ∧
    request.roomba.clean.mode = rpcCleanMode m
  | .drive velocity radius => request.whichRequest = 3 ∧ request.actuator.whichRequest = 1 ∧
    Holds16 request.actuator.drive.velocity velocity ∧
    Holds16 request.actuator.drive.radius radius
  | .play song => request.whichRequest = 3 ∧ request.actuator.whichRequest = 12 ∧
    request.actuator.play.songNumber = song.toUInt32

/-- Sign extension, on patterns. -/
lemma toNat_signExtend (x : Int16) : x.toInt32.toUInt32.toNat =
    x.toUInt16.toNat + if 2 ^ 15 ≤ x.toUInt16.toNat then 2 ^ 32 - 2 ^ 16 else 0 := by
  have hlt := x.toUInt16.toNat_lt
  show (x.toBitVec.signExtend 32).toNat = _
  rw [BitVec.toNat_signExtend, BitVec.toNat_setWidth, BitVec.msb_eq_decide]
  show x.toUInt16.toNat % 2 ^ 32 + _ = _
  rw [Nat.mod_eq_of_lt (by omega)]
  simp only [decide_eq_true_eq]
  rfl

lemma holds16_iff (v : UInt32) (x : Int16) : Holds16 v x ↔ v.toNat = x.toUInt16.toNat ∨
    v.toNat = x.toUInt16.toNat + if 2 ^ 15 ≤ x.toUInt16.toNat then 2 ^ 32 - 2 ^ 16 else 0 := by
  rw [Holds16, ← UInt32.toNat_inj, ← UInt32.toNat_inj, toNat_signExtend, UInt16.toNat_toUInt32]

lemma toNat_word (v : UInt32) : (word v).toUInt16.toNat = v.toNat % 2 ^ 16 :=
  UInt32.toNat_toUInt16 v

lemma word_of_holds16 {v : UInt32} {x : Int16} (h : Holds16 v x) : word v = x := by
  have hlt := x.toUInt16.toNat_lt
  have hpattern : (word v).toUInt16 = x.toUInt16 := by
    rw [← UInt16.toNat_inj, toNat_word]
    rw [holds16_iff] at h
    split at h <;> omega
  exact congrArg UInt16.toInt16 hpattern

lemma answer_of_asks {request : RpcRequest} {c : Command} (h : Asks request c) :
    answer request = .sent c := by
  cases c with
  | start | power =>
    obtain ⟨hwhich, hmember⟩ := h
    simp only [answer, answerRoomba, hwhich, hmember]
    rfl
  | baud value | mode value | clean value =>
    obtain ⟨hwhich, hmember, hvalue⟩ := h
    simp only [answer, answerRoomba, hwhich, hmember, hvalue]
    cases value <;> rfl
  | drive velocity radius =>
    obtain ⟨hwhich, hmember, hv, hr⟩ := h
    simp only [answer, answerActuator, hwhich, hmember]
    show Answer.sent (.drive (word _) (word _)) = _
    rw [word_of_holds16 hv, word_of_holds16 hr]
  | play song =>
    obtain ⟨hwhich, hmember, hvalue⟩ := h
    simp only [answer, answerActuator, hwhich, hmember, hvalue]
    show Answer.sent (.play song.toUInt32.toUInt8) = _
    rw [UInt8.toUInt8_toUInt32]

/-- **Commands are read back**: the one frame of a request gives the command it asks for, so
requests that ask for different commands never have the same frames. -/
theorem asks_readFrame :
    (∀ request c, Asks request c →
      ∃ frame, frames (handleRpcRequest request) = some [frame] ∧ readFrame frame = some c) ∧
    ∀ request request' c c', Asks request c → Asks request' c' →
      frames (handleRpcRequest request) = frames (handleRpcRequest request') → c = c' := by
  have hframes : ∀ request c, Asks request c →
      frames (handleRpcRequest request) = some [c.frame] := by
    intro request c h
    have hdoes := (handleRpcRequest_does request).frames
    rwa [answer_of_asks h] at hdoes
  refine ⟨fun request c h => ⟨c.frame, hframes request c h, readFrame_frame c⟩, ?_⟩
  intro request request' c c' h h' hsame
  rw [hframes request c h, hframes request' c' h'] at hsame
  refine frame_injective ?_
  simpa using hsame

/-- A drive backwards, its velocity sign-extended to 32 bits. -/
theorem asks_readFrame_backwards : ∃ frame,
    frames (handleRpcRequest ⟨1, 3, ⟨0, ⟨0⟩, ⟨0⟩, ⟨0⟩⟩, ⟨1, ⟨0xFFFFFF9C, 1⟩, ⟨0⟩⟩⟩) =
      some [frame] ∧ readFrame frame = some (.drive (-100) 1) :=
  asks_readFrame.1 ⟨1, 3, ⟨0, ⟨0⟩, ⟨0⟩, ⟨0⟩⟩, ⟨1, ⟨0xFFFFFF9C, 1⟩, ⟨0⟩⟩⟩ (.drive (-100) 1)
    ⟨rfl, rfl, Or.inr rfl, Or.inl rfl⟩

/-! ### Numbers out of range -/

lemma holds16_word_iff (v : UInt32) : Holds16 v (word v) ↔ Image16 v := by
  have hlt := v.toNat_lt
  rw [holds16_iff, toNat_word, Image16]
  split <;> omega

/-- **Numbers are narrowed**: a drive and a play are sent whatever their numbers, reduced to what
the wire has room for, and carry the number asked for exactly when it is in range. -/
theorem numbers_narrowed (request : RpcRequest) (hwhich : request.whichRequest = 3) :
    (request.actuator.whichRequest = 1 → ∃ frame velocity radius,
      frames (handleRpcRequest request) = some [frame] ∧
      readFrame frame = some (.drive velocity radius) ∧
      velocity.toUInt16.toNat = request.actuator.drive.velocity.toNat % 2 ^ 16 ∧
      radius.toUInt16.toNat = request.actuator.drive.radius.toNat % 2 ^ 16 ∧
      (Holds16 request.actuator.drive.velocity velocity ↔
        Image16 request.actuator.drive.velocity) ∧
      (Holds16 request.actuator.drive.radius radius ↔
        Image16 request.actuator.drive.radius)) ∧
    (request.actuator.whichRequest = 12 → ∃ frame song,
      frames (handleRpcRequest request) = some [frame] ∧ readFrame frame = some (.play song) ∧
      song.toNat = request.actuator.play.songNumber.toNat % 2 ^ 8 ∧
      (song.toUInt32 = request.actuator.play.songNumber ↔
        request.actuator.play.songNumber.toNat ≤ 255)) := by
  have hframes := (handleRpcRequest_does request).frames
  have hactuator : answer request = answerActuator request.actuator := by
    simp only [answer, hwhich]
    rfl
  rw [hactuator] at hframes
  constructor
  · intro hmember
    have hanswer : answerActuator request.actuator = .sent (.drive
        (word request.actuator.drive.velocity) (word request.actuator.drive.radius)) := by
      simp only [answerActuator, hmember]
      rfl
    rw [hanswer] at hframes
    exact ⟨_, _, _, hframes, readFrame_frame _, toNat_word _, toNat_word _, holds16_word_iff _,
      holds16_word_iff _⟩
  · intro hmember
    have hanswer : answerActuator request.actuator =
        .sent (.play request.actuator.play.songNumber.toUInt8) := by
      simp only [answerActuator, hmember]
      rfl
    rw [hanswer] at hframes
    refine ⟨_, _, hframes, readFrame_frame _, UInt32.toNat_toUInt8 _, ?_⟩
    rw [← UInt32.toNat_inj, UInt8.toNat_toUInt32, UInt32.toNat_toUInt8]
    omega

/-- A drive at 65636 is sent as a drive at 100. -/
theorem numbers_narrowed_drive : ∃ frame,
    frames (handleRpcRequest ⟨1, 3, ⟨0, ⟨0⟩, ⟨0⟩, ⟨0⟩⟩, ⟨1, ⟨65636, 1⟩, ⟨0⟩⟩⟩) = some [frame] ∧
      readFrame frame = some (.drive 100 1) := by
  obtain ⟨frame, velocity, radius, hframes, hread, -⟩ := (numbers_narrowed
    ⟨1, 3, ⟨0, ⟨0⟩, ⟨0⟩, ⟨0⟩⟩, ⟨1, ⟨65636, 1⟩, ⟨0⟩⟩⟩ rfl).1 rfl
  have hframe : frame = [137, 0, 100, 0, 1] := by
    have heq : frames (handleRpcRequest ⟨1, 3, ⟨0, ⟨0⟩, ⟨0⟩, ⟨0⟩⟩, ⟨1, ⟨65636, 1⟩, ⟨0⟩⟩⟩) =
      some [[137, 0, 100, 0, 1]] := by decide
    rw [heq] at hframes
    simpa using hframes.symm
  exact ⟨frame, hframes, by rw [hframe]; rfl⟩

/-- A drive whose velocity has no image of 16 bits still writes a frame. -/
theorem out_of_range_drives : ¬ ∀ request : RpcRequest, request.whichRequest = 3 →
    request.actuator.whichRequest = 1 → ¬ Image16 request.actuator.drive.velocity →
      frames (handleRpcRequest request) = some [] := by
  intro h
  have hframes := h ⟨1, 3, ⟨0, ⟨0⟩, ⟨0⟩, ⟨0⟩⟩, ⟨1, ⟨65636, 1⟩, ⟨0⟩⟩⟩ rfl rfl
    (by simp [Image16])
  exact absurd hframes (by decide)

end RoombaBrain.RoundTrip
