import RoombaBrain.Roomba
import RoombaBrain.Varint

/-!
Commands, and the frames they are sent as.

A command holds what the Roomba is told: signed 16-bit numbers for a drive, one byte for a song.
Its frame is the opcode and the arguments with the high byte first; `readFrame` is how the
Roomba takes it.
-/

namespace RoombaBrain.Commands

open RoombaBrain.FrameCode RoombaBrain.Roomba RoombaBrain.Varint

/-- `op_baud_code_t` -/
inductive OpBaudCode
  | baud300 | baud600 | baud1200 | baud2400 | baud4800 | baud9600 | baud14400 | baud19200
  | baud28800 | baud38400 | baud57600 | baud115200
  deriving DecidableEq, Repr

def OpBaudCode.code : OpBaudCode → UInt8
  | .baud300 => 0
  | .baud600 => 1
  | .baud1200 => 2
  | .baud2400 => 3
  | .baud4800 => 4
  | .baud9600 => 5
  | .baud14400 => 6
  | .baud19200 => 7
  | .baud28800 => 8
  | .baud38400 => 9
  | .baud57600 => 10
  | .baud115200 => 11

def OpBaudCode.rate : OpBaudCode → ℕ
  | .baud300 => 300
  | .baud600 => 600
  | .baud1200 => 1200
  | .baud2400 => 2400
  | .baud4800 => 4800
  | .baud9600 => 9600
  | .baud14400 => 14400
  | .baud19200 => 19200
  | .baud28800 => 28800
  | .baud38400 => 38400
  | .baud57600 => 57600
  | .baud115200 => 115200

def OpBaudCode.ofByte (b : UInt8) : Option OpBaudCode :=
  [baud300, baud600, baud1200, baud2400, baud4800, baud9600, baud14400, baud19200, baud28800,
    baud38400, baud57600, baud115200].find? fun code => code.code = b

@[simp] lemma ofByte_code (code : OpBaudCode) : OpBaudCode.ofByte code.code = some code := by
  cases code <;> rfl

inductive Mode
  | safe | full
  deriving DecidableEq, Repr

inductive CleanMode
  | clean | max | spot | dock
  deriving DecidableEq, Repr

inductive Command
  | start
  | power
  | baud (code : OpBaudCode)
  | mode (m : Mode)
  | clean (m : CleanMode)
  | drive (velocity radius : Int16)
  | play (song : UInt8)
  deriving DecidableEq, Repr

namespace Command

def op : Command → RoombaOpcode
  | start => .start
  | power => .power
  | baud _ => .baud
  | mode .safe => .safe
  | mode .full => .full
  | clean .clean => .clean
  | clean .max => .max
  | clean .spot => .spot
  | clean .dock => .seekDock
  | drive _ _ => .drive
  | play _ => .play

def bytesOf (x : Int16) : List UInt8 := [(x.toUInt16 >>> 8).toUInt8, x.toUInt16.toUInt8]

def args : Command → List UInt8
  | baud code => [code.code]
  | drive velocity radius => bytesOf velocity ++ bytesOf radius
  | play song => [song]
  | _ => []

def frame (c : Command) : List UInt8 := (opcodes c.op).opcode :: c.args

lemma nargs_op (c : Command) : frameTable.nargs c.op = c.args.length := by
  rcases c with _ | _ | _ | (_ | _) | (_ | _ | _ | _) | _ | _ <;> rfl

lemma parses_frame (c : Command) : Parses frameTable c.frame [(c.op, c.args)] :=
  Parses.frame c.nargs_op

end Command

/-! ### Reading a frame -/

/-- The entry of `opcodes` with a given opcode. -/
def opcodeOf (b : UInt8) : Option RoombaOpcode :=
  [RoombaOpcode.start, .reset, .stop, .baud, .safe, .full, .clean, .max, .spot, .seekDock,
    .schedule, .settime, .power, .drive, .driveDirect, .drivePwm, .motors, .motorsPwm, .leds,
    .scheduleLeds, .digitLeds, .digitLedsAscii, .buttons, .song, .play, .sensors, .queryList,
    .stream, .pause].find? fun op => (opcodes op).opcode = b

@[simp] lemma opcodeOf_opcode (op : RoombaOpcode) : opcodeOf (opcodes op).opcode = some op := by
  cases op <;> rfl

/-- A signed 16-bit number, high byte first. -/
def wordOf (hi lo : UInt8) : Int16 := ((hi.toUInt16 <<< 8) ||| lo.toUInt16).toInt16

/-- The command of a frame, by the table entry for its first byte. -/
def readFrame : List UInt8 → Option Command
  | [] => none
  | b :: args =>
    match opcodeOf b, args with
    | some .start, [] => some .start
    | some .power, [] => some .power
    | some .baud, [code] => (OpBaudCode.ofByte code).map .baud
    | some .safe, [] => some (.mode .safe)
    | some .full, [] => some (.mode .full)
    | some .clean, [] => some (.clean .clean)
    | some .max, [] => some (.clean .max)
    | some .spot, [] => some (.clean .spot)
    | some .seekDock, [] => some (.clean .dock)
    | some .drive, [v, v', r, r'] => some (.drive (wordOf v v') (wordOf r r'))
    | some .play, [song] => some (.play song)
    | _, _ => none

lemma wordOf_bytes (x : Int16) : wordOf (x.toUInt16 >>> 8).toUInt8 x.toUInt16.toUInt8 = x := by
  have hlt := x.toUInt16.toNat_lt
  have hword : ((x.toUInt16 >>> 8).toUInt8.toUInt16 <<< 8) ||| x.toUInt16.toUInt8.toUInt16 =
      x.toUInt16 := by
    rw [← UInt16.toNat_inj, UInt16.toNat_or, UInt16.toNat_shiftLeft, UInt8.toNat_toUInt16,
      UInt8.toNat_toUInt16, UInt16.toNat_toUInt8, UInt16.toNat_toUInt8, UInt16.toNat_shiftRight,
      Nat.shiftRight_eq_div_pow, Nat.shiftLeft_eq]
    have hshift : x.toUInt16.toNat / 256 % 256 * 2 ^ 8 % 2 ^ 16 =
        x.toUInt16.toNat / 256 * 2 ^ 8 := by omega
    calc x.toUInt16.toNat / 256 % 256 * 2 ^ 8 % 2 ^ 16 ||| x.toUInt16.toNat % 256
        = x.toUInt16.toNat % 256 ||| (x.toUInt16.toNat / 256) <<< 8 := by
          rw [hshift, Nat.shiftLeft_eq, Nat.or_comm]
      _ = x.toUInt16.toNat % 256 + x.toUInt16.toNat / 256 * 2 ^ 8 :=
          or_shift_eq_add (Nat.mod_lt _ (by omega))
      _ = x.toUInt16.toNat := by omega
  rw [wordOf, hword]
  rfl

/-- **The Roomba takes a frame as the command it was sent for.** -/
theorem readFrame_frame (c : Command) : readFrame c.frame = some c := by
  rcases c with _ | _ | code | (_ | _) | (_ | _ | _ | _) | ⟨v, r⟩ | song
  · rfl
  · rfl
  · show (OpBaudCode.ofByte code.code).map Command.baud = _
    rw [ofByte_code]
    rfl
  · rfl
  · rfl
  · rfl
  · rfl
  · rfl
  · rfl
  · show some (Command.drive (wordOf _ _) (wordOf _ _)) = _
    rw [wordOf_bytes, wordOf_bytes]
  · rfl

/-- Different commands have different frames. -/
lemma frame_injective : Function.Injective Command.frame := by
  intro c d h
  have := congrArg readFrame h
  simpa [readFrame_frame] using this

end RoombaBrain.Commands
