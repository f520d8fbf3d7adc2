import RoombaBrain.RpcSchema
import RoombaBrain.PbEncode
import RoombaBrain.Commands

/-!
The rpc (`rpc.c`).

The handlers return what they do, call by call: a command sent, or an error logged. Reading past
the end of the memory or through a null pointer ends the program and is `none`.
-/

namespace RoombaBrain.Rpc

open RoombaBrain.PbStream RoombaBrain.PbDecode RoombaBrain.PbEncode RoombaBrain.Roomba
  RoombaBrain.Commands RoombaBrain.RpcSchema

/-- A call of `send_roomba_cmd`. -/
structure Call where
  op : RoombaOpcode
  len : Int8
  args : List Int32
  deriving DecidableEq

/-- What a handler does: a command sent, or `ESP_LOGE` with a format and its argument. -/
inductive Action
  | sendRoombaCmd (call : Call)
  | espLoge (format : String) (which : UInt32)
  deriving DecidableEq

/-! ### Dispatch -/

/-- `handle_rpc_roomba_mode` -/
def handleRpcRoombaMode (mode : RpcModeRequest) : List Action :=
  match mode.mode.toNat with
  | 1 => [.sendRoombaCmd ⟨.full, 0, []⟩] -- RPC_ModeRequest_Mode_FULL
  | 0 => [.sendRoombaCmd ⟨.safe, 0, []⟩] -- RPC_ModeRequest_Mode_SAFE
  | _ => []

/-- `handle_rpc_roomba_clean` -/
def handleRpcRoombaClean (clean : RpcCleanRequest) : List Action :=
  match clean.mode.toNat with
  | 0 => [.sendRoombaCmd ⟨.clean, 0, []⟩] -- RPC_CleanRequest_CleanMode_CLEAN
  | 3 => [.sendRoombaCmd ⟨.seekDock, 0, []⟩] -- RPC_CleanRequest_CleanMode_DOCK
  | 1 => [.sendRoombaCmd ⟨.max, 0, []⟩] -- RPC_CleanRequest_CleanMode_MAX
  | 2 => [.sendRoombaCmd ⟨.spot, 0, []⟩] -- RPC_CleanRequest_CleanMode_SPOT
  | _ => []

def sendBaud (code : OpBaudCode) : List Action :=
  [.sendRoombaCmd ⟨.baud, 1, [code.code.toUInt32.toInt32]⟩]

/-- `handle_rpc_roomba_baud`, by the enumerators of `RPC_BaudRequest_BaudRate` -/
def handleRpcRoombaBaud (baud : RpcBaudRequest) : List Action :=
  match baud.rate.toNat with
  | 0 => sendBaud .baud300
  | 1 => sendBaud .baud600
  | 2 => sendBaud .baud1200
  | 3 => sendBaud .baud2400
  | 4 => sendBaud .baud4800
  | 5 => sendBaud .baud9600
  | 6 => sendBaud .baud14400
  | 7 => sendBaud .baud19200
  | 8 => sendBaud .baud28800
  | 9 => sendBaud .baud38400
  | 10 => sendBaud .baud57600
  | 11 => sendBaud .baud115200
  | _ => []

/-- `handle_rpc_roomba` -/
def handleRpcRoomba (roomba : RpcRoomba) : List Action :=
  match roomba.whichRequest.toNat with
  | 3 => handleRpcRoombaMode roomba.mode
  | 7 => [.sendRoombaCmd ⟨.power, 0, []⟩]
  | 4 => handleRpcRoombaClean roomba.clean
  | 1 => [.sendRoombaCmd ⟨.start, 0, []⟩]
  | 2 => handleRpcRoombaBaud roomba.baud
  | _ => [.espLoge "Unhandled roomba rpc call: %i" roomba.whichRequest]

/-- `HI` -/
def hi (x : UInt32) : UInt32 := x >>> 8

/-- `LO` -/
def lo (x : UInt32) : UInt32 := x &&& 0xFF

/-- `handle_rpc_actuator` -/
def handleRpcActuator (actuator : RpcActuator) : List Action :=
  match actuator.whichRequest.toNat with
  | 9 => [] -- RPC_Actuator_digital_leds_ascii_tag
  | 1 =>
    let drive := actuator.drive
    [.sendRoombaCmd ⟨.drive, 4, [(hi drive.velocity).toInt32, (lo drive.velocity).toInt32,
      (hi drive.radius).toInt32, (lo drive.radius).toInt32]⟩]
  | 3 => [] -- RPC_Actuator_drive_pwm_tag
  | 2 => [] -- RPC_Actuator_direct_drive_tag
  | 4 => [] -- RPC_Actuator_motors_tag
  | 5 => [] -- RPC_Actuator_motors_pwm_tag
  | 6 => [] -- RPC_Actuator_leds_tag
  | 8 => [] -- RPC_Actuator_digital_leds_tag
  | 12 => [.sendRoombaCmd ⟨.play, 1, [actuator.play.songNumber.toUInt8.toUInt32.toInt32]⟩]
  | 11 => [] -- RPC_Actuator_song_tag
  | _ => [.espLoge "Unhandled actuator rpc call: %i" actuator.whichRequest]

/-- `handle_rpc_request` -/
def handleRpcRequest (request : RpcRequest) : List Action :=
  match request.whichRequest.toNat with
  | 2 => handleRpcRoomba request.roomba
  | 3 => handleRpcActuator request.actuator
  | _ => [.espLoge "Unhandled rpc call: %i" request.whichRequest]

def Action.call? : Action → Option Call
  | .sendRoombaCmd call => some call
  | .espLoge _ _ => none

def calls (actions : List Action) : List Call := actions.filterMap Action.call?

/-- What the actions write to the UART, one entry for each `uart_write_bytes`. -/
def frames (actions : List Action) : Option (List (List UInt8)) :=
  (calls actions).mapM fun call => sendRoombaCmd call.op call.len call.args

/-- A line of the log: `ESP_LOGI` or `ESP_LOGE`. -/
inductive LogLine
  | info (text : String)
  | error (format : String) (which : UInt32)
  deriving DecidableEq

def Action.log : Action → LogLine
  | .sendRoombaCmd call => .info (sendInfo call.op)
  | .espLoge format which => .error format which

/-! ### The request -/

/-- `strlen`; `none` when it runs off the memory. -/
def strlen : List UInt8 → Option ℕ
  | [] => none
  | c :: mem => if c = 0 then some 0 else (strlen mem).map (· + 1)

/-- `RESP_BUF` -/
def respBuf : ℕ := 120

/-- What a request comes to: the result of `pb_decode` and what it left in `rpc_request`, the
actions with what they wrote to the UART and to the log, the result of `pb_encode`, and `*size`
with the bytes written to `resp_buf`. There is no reply when `pb_encode` wrote through a null
pointer. -/
structure Outcome where
  decoded : Bool
  request : RpcRequest
  actions : List Action
  frames : List (List UInt8)
  log : List LogLine
  encoded : Bool
  reply : Option (ℕ × List UInt8)

def succeeded {α : Type} : Except String α → Bool
  | .ok _ => true
  | .error _ => false

/-- The end of `perform_rpc_request`: the response, into a buffer from `malloc`. -/
def respond (mallocOk : Bool) (id : UInt32) : Bool × Option (ℕ × List UInt8) :=
  let resp := PbStruct.zero.setNum 1 id
  let r := pbEncode (pbOstreamFromBuffer respBuf) responseFields resp
  (succeeded r.1, if mallocOk ∨ r.2.state = [] then some (r.2.bytesWritten, r.2.state) else none)

/-- `perform_rpc_request` on the memory at `data`, which is `none` for `NULL`. -/
def performRpcRequest (mallocOk : Bool) (data : Option (List UInt8)) : Option Outcome := do
  let data ← data
  let bufsize ← strlen data
  let r := pbDecode (pbIstreamFromBuffer data bufsize) requestFields .zero
  let request := rpcRequest r.1
  let actions := handleRpcRequest request
  let frames ← frames actions
  let response := respond mallocOk request.id
  some {
    decoded := succeeded r.2
    request := request
    actions := actions
    frames := frames
    log := actions.map Action.log
    encoded := response.1
    reply := response.2 }

/-- The memory at `data` after `coap_get_data`: the payload and what follows it, or a null pointer
where the request has no payload. -/
def dataAt (payload : Option (List UInt8)) (after : List UInt8) : Option (List UInt8) :=
  payload.map fun p => p ++ after

end RoombaBrain.Rpc
