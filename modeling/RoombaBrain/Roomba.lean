import RoombaBrain.FrameCode

/-!
The serial command writer (`roomba.c`, `roomba.h`).

`send_roomba_cmd` fills a buffer with the opcode of the command and its arguments, narrowed to
`char`, and writes it to the UART. Undefined behaviour (a store outside the buffer, an argument
taken that was not passed, an unset byte written) is `none`.
-/

namespace RoombaBrain.Roomba

open RoombaBrain.FrameCode

/-- `roomba_opcode_t` -/
inductive RoombaOpcode
  | start | reset | stop | baud | safe | full | clean | max | spot | seekDock | schedule | settime
  | power | drive | driveDirect | drivePwm | motors | motorsPwm | leds | scheduleLeds | digitLeds
  | digitLedsAscii | buttons | song | play | sensors | queryList | stream | pause
  deriving DecidableEq, Repr

/-- `opcode_t` -/
structure Opcode where
  opcode : UInt8
  nargs : Int8
  description : String

/-- `opcodes` -/
def opcodes : RoombaOpcode → Opcode
  | .start => ⟨128, 0, "start"⟩
  | .reset => ⟨7, 0, "reset"⟩
  | .stop => ⟨173, 0, "stop"⟩
  | .baud => ⟨129, 1, "baud"⟩
  | .safe => ⟨131, 0, "mode/safe"⟩
  | .full => ⟨132, 0, "mode/full"⟩
  | .clean => ⟨135, 0, "clean/clean"⟩
  | .max => ⟨136, 0, "clean/max"⟩
  | .spot => ⟨134, 0, "clean/spot"⟩
  | .seekDock => ⟨143, 0, "clean/dock"⟩
  | .schedule => ⟨167, 15, "clean/schedule"⟩
  | .settime => ⟨168, 3, "clean/settime"⟩
  | .power => ⟨133, 0, "clean/power"⟩
  | .drive => ⟨137, 4, "actuator/drive"⟩
  | .driveDirect => ⟨145, 4, "actuator/drive_direct"⟩
  | .drivePwm => ⟨146, 4, "actuator/drive_pwm"⟩
  | .motors => ⟨138, 1, "actuator/motors"⟩
  | .motorsPwm => ⟨144, 3, "actuator/motors_pwm"⟩
  | .leds => ⟨139, 3, "actuator/leds"⟩
  | .scheduleLeds => ⟨162, 2, "actuator/schedule_leds"⟩
  | .digitLeds => ⟨163, 4, "actuator/digit_leds"⟩
  | .digitLedsAscii => ⟨164, 4, "actuator/digit_leds_ascii"⟩
  | .buttons => ⟨165, 1, "actuator/buttons"⟩
  | .song => ⟨140, -1, "actuator/song"⟩
  | .play => ⟨141, 1, "actuator/play"⟩
  | .sensors => ⟨142, 1, "input/sensors"⟩
  | .queryList => ⟨149, -1, "input/query_list"⟩
  | .stream => ⟨148, -1, "input/stream"⟩
  | .pause => ⟨150, 1, "input/pause"⟩

lemma opcode_injective : Function.Injective fun op => (opcodes op).opcode := by
  intro a b
  cases a <;> cases b <;> first | (intro; rfl) | (intro h; exact absurd h (by decide))

/-- The table by which the Roomba reads its serial line. -/
def frameTable : Table RoombaOpcode where
  code op := (opcodes op).opcode
  nargs op := (opcodes op).nargs.toInt
  code_injective := opcode_injective

/-! ### The UART -/

/-- `uart_config_t` -/
structure UartConfig where
  baudRate : ℕ
  dataBits : ℕ
  parity : Bool
  stopBits : ℕ
  flowCtrl : Bool
  deriving DecidableEq

/-- `ROOMBA_UART`: its configuration, and what was written to it, with the baud rate configured
at the time. -/
structure Uart where
  config : UartConfig
  written : List (ℕ × List UInt8)

/-- `roomba_init` -/
def roombaInit : Uart where
  config :=
    { baudRate := 115200
      dataBits := 8
      parity := false
      stopBits := 1
      flowCtrl := false }
  written := []

/-- `uart_write_bytes` -/
def uartWriteBytes (uart : Uart) (src : List UInt8) : Uart :=
  { uart with written := uart.written ++ [(uart.config.baudRate, src)] }

def Uart.stream (uart : Uart) : List UInt8 := (uart.written.map Prod.snd).flatten

@[simp] lemma config_uartWriteBytes (uart : Uart) (src : List UInt8) :
    (uartWriteBytes uart src).config = uart.config := rfl

@[simp] lemma stream_uartWriteBytes (uart : Uart) (src : List UInt8) :
    (uartWriteBytes uart src).stream = uart.stream ++ src := by
  simp [Uart.stream, uartWriteBytes]

lemma stream_foldl (frames : List (List UInt8)) (uart : Uart) :
    (frames.foldl uartWriteBytes uart).stream = uart.stream ++ frames.flatten := by
  induction frames generalizing uart with
  | nil => simp
  | cons f frames ih =>
    rw [List.foldl_cons, ih, stream_uartWriteBytes, List.flatten_cons, List.append_assoc]

/-! ### `send_roomba_cmd` -/

/-- The cast of an `int` to `char`. -/
def charOf (arg : Int32) : UInt8 := arg.toUInt32.toUInt8

/-- `bfr[i] = c`; cells that were not stored to are `none`. -/
def store (bfr : List (Option UInt8)) (i : Int8) (c : UInt8) : Option (List (Option UInt8)) :=
  if 0 ≤ i.toInt ∧ i.toInt < bfr.length then some (bfr.set i.toInt.toNat (some c)) else none

/-- The loop over the arguments. The counter wraps as `int8_t`. -/
def argLoop (len : Int8) : List Int32 → Int8 → List (Option UInt8) → Option (List (Option UInt8))
  | [], i, bfr => if i ≤ len then none else some bfr
  | arg :: args, i, bfr =>
    if i ≤ len then do
      let bfr ← store bfr i (charOf arg)
      argLoop len args (i + 1) bfr
    else some bfr

def filled (bfr : List (Option UInt8)) : Option (List UInt8) := bfr.mapM id

/-- `send_roomba_cmd`, up to `uart_write_bytes`: the `len + 1` bytes it writes. -/
def sendRoombaCmd (op : RoombaOpcode) (len : Int8) (args : List Int32) : Option (List UInt8) :=
  if len.toInt < 0 then none
  else do
    let bfr ← store (List.replicate (len.toInt.toNat + 1) none) 0 (opcodes op).opcode
    let bfr ← argLoop len args 1 bfr
    filled bfr

/-- The line that `send_roomba_cmd` logs. -/
def sendInfo (op : RoombaOpcode) : String :=
  "Sending command " ++ (opcodes op).description ++ " to roomba\n"

lemma store_eq {p : List (Option UInt8)} {i : Int8} (hi : i.toInt = p.length) (c : UInt8)
    (x : Option UInt8) (r : List (Option UInt8)) :
    store (p ++ x :: r) i c = some (p ++ some c :: r) := by
  have hbound : 0 ≤ i.toInt ∧ i.toInt < (p ++ x :: r).length := by
    rw [hi, List.length_append, List.length_cons]
    omega
  rw [store, if_pos hbound, hi, Int.toNat_natCast]
  simp

lemma toInt_succ {i : Int8} (h0 : 0 ≤ i.toInt) (h : i.toInt < 127) :
    (i + 1).toInt = i.toInt + 1 := by
  rw [Int8.toInt_add]
  show (i.toInt + 1).bmod (2 ^ 8) = i.toInt + 1
  rw [Int.bmod_eq_of_le] <;> omega

/-- Below the top of its type the counter reaches every argument: the cells before it are set, and
as many are left as there are arguments. -/
lemma argLoop_eq {len : Int8} (hlen : len.toInt < 127) (args : List Int32) {i : Int8}
    {p : List (Option UInt8)} (hi : i.toInt = p.length)
    (hcount : (p.length : ℤ) + args.length = len.toInt + 1) :
    argLoop len args i (p ++ List.replicate args.length none) =
      some (p ++ args.map fun arg => some (charOf arg)) := by
  induction args generalizing i p with
  | nil =>
    have hstop : ¬ i ≤ len := by
      rw [Int8.le_iff_toInt_le, hi]
      simp only [List.length_nil] at hcount
      omega
    simp [argLoop, hstop]
  | cons arg args ih =>
    simp only [List.length_cons] at hcount
    have hgo : i ≤ len := by
      rw [Int8.le_iff_toInt_le, hi]
      omega
    have hsucc : (i + 1).toInt = (p ++ [some (charOf arg)]).length := by
      rw [toInt_succ (by omega) (by omega), hi]
      simp
    have hrest := ih hsucc (by simp only [List.length_append, List.length_singleton]; omega)
    rw [List.append_assoc, List.singleton_append] at hrest
    rw [argLoop, if_pos hgo, List.length_cons, List.replicate_succ, store_eq hi]
    simpa using hrest

lemma filled_map_some (bytes : List UInt8) : filled (bytes.map some) = some bytes := by
  induction bytes with
  | nil => rfl
  | cons b bytes ih =>
    simp only [filled] at ih
    simp [filled, ih]

/-- **A command is its opcode and its arguments mod 256**, as long as there are fewer than 127 of
them. -/
theorem sendRoombaCmd_eq (op : RoombaOpcode) {len : Int8} {args : List Int32}
    (hlen : len.toInt = args.length) (hlt : args.length < 127) :
    sendRoombaCmd op len args = some ((opcodes op).opcode :: args.map charOf) := by
  have hneg : ¬ len.toInt < 0 := by omega
  have hsize : len.toInt.toNat + 1 = args.length + 1 := by omega
  have hstore := store_eq (p := []) (i := 0) rfl (opcodes op).opcode none
    (List.replicate args.length none)
  have hloop := argLoop_eq (show len.toInt < 127 by omega) args (i := 1)
    (p := [some (opcodes op).opcode]) rfl
    (by simp only [List.length_singleton]; omega)
  have hfill := filled_map_some ((opcodes op).opcode :: args.map charOf)
  rw [List.map_cons, List.map_map] at hfill
  simp only [List.nil_append] at hstore
  simp only [List.singleton_append] at hloop
  rw [sendRoombaCmd, if_neg hneg, hsize, List.replicate_succ, hstore]
  simp only [Option.bind_eq_bind, Option.bind_some, hloop]
  exact hfill

end RoombaBrain.Roomba
