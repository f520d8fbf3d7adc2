import RoombaBrain.PbFields

/-!
The messages of the rpc (`rpc/request.proto`, `rpc/response.proto`).

The tables are those the generator makes of the schema, in the order of the tags. The records are
the structs, with the members that the dispatch reads; what is stored for the others is kept in
the struct only.
-/

namespace RoombaBrain.RpcSchema

open RoombaBrain.PbDecode RoombaBrain.PbFields

/-! ### Tables -/

/-- `n` numbers or enums, with the tags from 1. -/
def scalarFields (n : ℕ) : List PbField := (List.range n).map fun i => .uint32 (i + 1)

/-- `RPC_StartRequest_fields` -/
def startRequestFields : List PbField := []

/-- `RPC_BaudRequest_fields`: `rate` -/
def baudRequestFields : List PbField := scalarFields 1

/-- `RPC_ModeRequest_fields`: `mode` -/
def modeRequestFields : List PbField := scalarFields 1

/-- `RPC_CleanRequest_fields`: `mode` -/
def cleanRequestFields : List PbField := scalarFields 1

/-- `RPC_ScheduleRequest_Day_fields`: `hour`, `minute` -/
def scheduleDayFields : List PbField := scalarFields 2

/-- `RPC_ScheduleRequest_fields`: `sunday` to `saturday` -/
def scheduleRequestFields : List PbField :=
  (List.range 7).map fun i => .message (i + 1) scheduleDayFields

/-- `RPC_SetTimeRequest_fields`: `day`, `hour`, `minute` -/
def setTimeRequestFields : List PbField := scalarFields 3

/-- `RPC_PowerRequest_fields` -/
def powerRequestFields : List PbField := []

/-- `RPC_Roomba_fields` -/
def roombaFields : List PbField :=
  [.oneof 1 startRequestFields, .oneof 2 baudRequestFields, .oneof 3 modeRequestFields,
    .oneof 4 cleanRequestFields, .oneof 5 scheduleRequestFields, .oneof 6 setTimeRequestFields,
    .oneof 7 powerRequestFields]

/-- `RPC_DriveRequest_fields`: `velocity`, `radius` -/
def driveRequestFields : List PbField := scalarFields 2

/-- `RPC_DriveDirectRequest_fields`: `right_velocity`, `left_velocity` -/
def driveDirectRequestFields : List PbField := scalarFields 2

/-- `RPC_DrivePWMRequest_fields`: `right_pwm`, `left_pwm` -/
def drivePwmRequestFields : List PbField := scalarFields 2

/-- `RPC_MotorsRequest_fields`: `side_brush_direction` to `main_brush` -/
def motorsRequestFields : List PbField := scalarFields 5

/-- `RPC_MotorsPWMRequest_fields`: `main_brush_pwm`, `side_brush_pwm`, `vacuum_pwm` -/
def motorsPwmRequestFields : List PbField := scalarFields 3

/-- `RPC_LEDsRequest_fields`: `debris` to `clean_power_intensity` -/
def ledsRequestFields : List PbField := scalarFields 6

/-- `RPC_SchedulingLEDsRequest_fields`: `saturday` to `colon` -/
def schedulingLedsRequestFields : List PbField := scalarFields 12

/-- `RPC_DigitLEDsRequest_LedSegment_fields`: `top` to `bottom` -/
def ledSegmentFields : List PbField := scalarFields 7

/-- `RPC_DigitLEDsRequest_fields`: `one` to `four` -/
def digitLedsRequestFields : List PbField :=
  (List.range 4).map fun i => .message (i + 1) ledSegmentFields

/-- `RPC_DigitLEDsAsciiRequest_fields`: `message` -/
def digitLedsAsciiRequestFields : List PbField := [.callback 1]

/-- `RPC_ButtonsRequest_fields`: `clean` to `clock` -/
def buttonsRequestFields : List PbField := scalarFields 8

/-- `RPC_SongRequest_fields`: `song_number`, `notes` -/
def songRequestFields : List PbField := [.uint32 1, .callback 2]

/-- `RPC_PlayRequest_fields`: `song_number` -/
def playRequestFields : List PbField := scalarFields 1

/-- `RPC_Actuator_fields` -/
def actuatorFields : List PbField :=
  [.oneof 1 driveRequestFields, .oneof 2 driveDirectRequestFields,
    .oneof 3 drivePwmRequestFields, .oneof 4 motorsRequestFields,
    .oneof 5 motorsPwmRequestFields, .oneof 6 ledsRequestFields,
    .oneof 7 schedulingLedsRequestFields, .oneof 8 digitLedsRequestFields,
    .oneof 9 digitLedsAsciiRequestFields, .oneof 10 buttonsRequestFields,
    .oneof 11 songRequestFields, .oneof 12 playRequestFields]

/-- `RPC_Request_fields`: `id`, and the oneof of `roomba` and `actuator` -/
def requestFields : List PbField := [.uint32 1, .oneof 2 roombaFields, .oneof 3 actuatorFields]

/-- `RPC_Response_fields`: `id`, `result` -/
def responseFields : List PbField := [.uint32 1, .callback 2]

/-! ### Structs -/

/-- `RPC_BaudRequest` -/
structure RpcBaudRequest where
  rate : UInt32

/-- `RPC_ModeRequest` -/
structure RpcModeRequest where
  mode : UInt32

/-- `RPC_CleanRequest` -/
structure RpcCleanRequest where
  mode : UInt32

/-- `RPC_Roomba` -/
structure RpcRoomba where
  whichRequest : UInt32
  baud : RpcBaudRequest
  mode : RpcModeRequest
  clean : RpcCleanRequest

/-- `RPC_DriveRequest` -/
structure RpcDriveRequest where
  velocity : UInt32
  radius : UInt32

/-- `RPC_PlayRequest` -/
structure RpcPlayRequest where
  songNumber : UInt32

/-- `RPC_Actuator` -/
structure RpcActuator where
  whichRequest : UInt32
  drive : RpcDriveRequest
  play : RpcPlayRequest

/-- `RPC_Request` -/
structure RpcRequest where
  id : UInt32
  whichRequest : UInt32
  roomba : RpcRoomba
  actuator : RpcActuator

def rpcRoomba (d : PbStruct) : RpcRoomba where
  whichRequest := d.num 0
  baud := ⟨(d.sub 2).num 1⟩
  mode := ⟨(d.sub 3).num 1⟩
  clean := ⟨(d.sub 4).num 1⟩

def rpcActuator (d : PbStruct) : RpcActuator where
  whichRequest := d.num 0
  drive := ⟨(d.sub 1).num 1, (d.sub 1).num 2⟩
  play := ⟨(d.sub 12).num 1⟩

def rpcRequest (d : PbStruct) : RpcRequest where
  id := d.num 1
  whichRequest := d.num 0
  roomba := rpcRoomba (d.sub 2)
  actuator := rpcActuator (d.sub 3)

lemma requestFields_oneofOnly : OneofOnly requestFields := by decide
lemma roombaFields_oneofOnly : OneofOnly roombaFields := by decide
lemma actuatorFields_oneofOnly : OneofOnly actuatorFields := by decide

end RoombaBrain.RpcSchema
