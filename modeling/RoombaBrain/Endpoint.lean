import RoombaBrain.Payload

/-!
The endpoint (`endpoint.c`), over whole runs.

Each post is handled by `hnd_roomba_cmd_post`, in the order of arrival. What is written to the
UART is a sequence of whole frames, those of the commands issued. The UART stays at the rate it
was set up with, whatever rate the Roomba is told.
-/

namespace RoombaBrain.Endpoint

open RoombaBrain.FrameCode RoombaBrain.PbMessage RoombaBrain.PbFields RoombaBrain.Roomba
  RoombaBrain.Commands RoombaBrain.RpcSchema RoombaBrain.Rpc RoombaBrain.Dispatch
  RoombaBrain.Perform RoombaBrain.Response RoombaBrain.Payload

/-- A post: its payload, the memory after it, and whether `malloc` succeeds for the response. -/
structure Post where
  payload : Option (List UInt8)
  after : List UInt8
  mallocOk : Bool

/-- The program: the UART, the commands issued to it, the responses sent, and whether the program
has ended on a bad access to memory. -/
structure World where
  uart : Uart
  issued : List Call
  responses : List (List UInt8)
  halted : Bool

def World.start : World := ⟨roombaInit, [], [], false⟩

/-- `hnd_roomba_cmd_post` -/
def hndRoombaCmdPost (w : World) (post : Post) : World :=
  if w.halted then w
  else match performRpcRequest post.mallocOk (dataAt post.payload post.after) with
    | none => { w with halted := true }
    | some out =>
      { uart := out.frames.foldl uartWriteBytes w.uart
        issued := w.issued ++ calls out.actions
        responses := w.responses ++ (out.reply.map fun r => r.2.take r.1).toList
        halted := out.reply.isNone }

def run (posts : List Post) : World := posts.foldl hndRoombaCmdPost World.start

lemma run_concat (posts : List Post) (post : Post) :
    run (posts ++ [post]) = hndRoombaCmdPost (run posts) post := by
  simp [run]

/-- What the UART holds decides nothing but what it holds afterwards. -/
lemma hndRoombaCmdPost_uart (w : World) (post : Post) (uart uart' : Uart) :
    { hndRoombaCmdPost { w with uart := uart } post with uart := uart' } =
      { hndRoombaCmdPost w post with uart := uart' } := by
  unfold hndRoombaCmdPost
  by_cases hhalt : w.halted = true
  · simp only [hhalt, if_true]
  · simp only [hhalt]
    cases performRpcRequest post.mallocOk (dataAt post.payload post.after) <;> rfl

def Post.nodes (post : Post) : List Node :=
  match post.payload with
  | some p => (entered (p ++ post.after)).nodes
  | none => []

/-! ### One post -/

/-- A post leaves the program as it is, up to halting, or has the effect of its answer. -/
lemma hndRoombaCmdPost_cases (w : World) (post : Post) :
    ((hndRoombaCmdPost w post).uart = w.uart ∧ (hndRoombaCmdPost w post).issued = w.issued ∧
      (hndRoombaCmdPost w post).halted = true) ∨
    ∃ actions, w.halted = false ∧ Does actions (wireAnswer post.nodes) ∧
      (hndRoombaCmdPost w post).uart =
        (wireAnswer post.nodes).frames.foldl uartWriteBytes w.uart ∧
      (hndRoombaCmdPost w post).issued = w.issued ++ calls actions := by
  unfold hndRoombaCmdPost
  by_cases hhalt : w.halted = true
  · rw [if_pos hhalt]
    exact Or.inl ⟨rfl, rfl, hhalt⟩
  rw [if_neg hhalt]
  rcases hout : performRpcRequest post.mallocOk (dataAt post.payload post.after) with _ | out
  · exact Or.inl ⟨rfl, rfl, rfl⟩
  right
  obtain ⟨mem, hmem, -, rfl⟩ := exists_entered hout
  have hnodes : post.nodes = (entered mem).nodes := by
    unfold dataAt at hmem
    unfold Post.nodes
    rcases hp : post.payload with _ | p <;> rw [hp] at hmem <;> cases hmem
    rfl
  have hdoes := handleRpcRequest_does (rpcRequest (storeAll (entered mem).nodes .zero))
  rw [answer_entered] at hdoes
  rw [hnodes]
  exact ⟨_, by simpa using hhalt, hdoes, rfl, rfl⟩

/-! ### The line is well framed -/

def onLine (issued : List Call) : List (RoombaOpcode × List UInt8) :=
  issued.map fun call => (call.op, call.args.map charOf)

/-- The line is read as the commands issued, which have the arguments of their table entries. -/
structure Framed (w : World) : Prop where
  parses : Parses frameTable w.uart.stream (onLine w.issued)
  nargs : ∀ call ∈ w.issued, (opcodes call.op).nargs ≠ -1 ∧
    (opcodes call.op).nargs = call.len ∧ call.len.toInt = call.args.length

lemma framed_start : Framed World.start := ⟨.nil, by simp [World.start]⟩

lemma Framed.same_line {w w' : World} (h : Framed w) (huart : w'.uart = w.uart)
    (hissued : w'.issued = w.issued) : Framed w' := by
  refine ⟨?_, ?_⟩
  · rw [huart, hissued]
    exact h.parses
  · rw [hissued]
    exact h.nargs

lemma framed_step {w : World} (h : Framed w) (post : Post) : Framed (hndRoombaCmdPost w post) := by
  rcases hndRoombaCmdPost_cases w post with
    ⟨huart, hissued, -⟩ | ⟨actions, -, hdoes, huart, hissued⟩
  · exact h.same_line huart hissued
  rcases hdoes.calls with ⟨c, call, ha, hcalls, hsends⟩ | ⟨hframes, hcalls⟩
  · -- one frame is appended, that of the command sent
    rw [ha] at huart
    rw [hcalls] at hissued
    have hnargs : (opcodes call.op).nargs ≠ -1 := by
      intro hneg
      have hlen : (opcodes call.op).nargs.toInt = c.args.length := hsends.op ▸ c.nargs_op
      rw [hneg] at hlen
      have : (-1 : Int8).toInt = -1 := rfl
      omega
    refine ⟨?_, ?_⟩
    · rw [huart, hissued]
      have hline : onLine (w.issued ++ [call]) = onLine w.issued ++ [(c.op, c.args)] := by
        simp [onLine, hsends.op, hsends.args]
      rw [hline]
      show Parses frameTable (uartWriteBytes w.uart c.frame).stream _
      rw [stream_uartWriteBytes]
      exact h.parses.append c.parses_frame
    · intro call' hmem
      rw [hissued, List.mem_append, List.mem_singleton] at hmem
      rcases hmem with hmem | rfl
      · exact h.nargs call' hmem
      · exact ⟨hnargs, hsends.nargs, hsends.len⟩
  · -- nothing is written, and nothing issued
    rw [hcalls, List.append_nil] at hissued
    rw [hframes] at huart
    exact h.same_line huart hissued

lemma framed_run (posts : List Post) : Framed (run posts) := by
  induction posts using List.reverseRecOn with
  | nil => exact framed_start
  | append_singleton posts post ih =>
    rw [run_concat]
    exact framed_step ih post

/-- **The line is well framed in every run**: a request writes at most one frame, and the line is
read in exactly one way, as the commands issued. -/
theorem run_framed :
    (∀ mallocOk data out, performRpcRequest mallocOk data = some out → out.frames.length ≤ 1) ∧
    ∀ posts, Framed (run posts) ∧
      ∀ cs, Parses frameTable (run posts).uart.stream cs → cs = onLine (run posts).issued := by
  refine ⟨fun mallocOk data out h => ?_, fun posts => ⟨framed_run posts, fun cs hcs =>
    hcs.unique (framed_run posts).parses⟩⟩
  obtain ⟨mem, -, -, rfl⟩ := exists_entered h
  show (wireAnswer (entered mem).nodes).frames.length ≤ 1
  cases wireAnswer (entered mem).nodes <;> simp [Answer.frames]

/-- The line after a baud rate and a drive. -/
theorem run_framed_baud :
    Parses frameTable [129, 5, 137, 0, 100, 0, 1] [(.baud, [5]), (.drive, [0, 100, 0, 1])] ∧
      ∀ cs, Parses frameTable [129, 5, 137, 0, 100, 0, 1] cs →
        cs = [(.baud, [5]), (.drive, [0, 100, 0, 1])] := by
  obtain ⟨hframed, hunique⟩ := run_framed.2
    [⟨some [0x12, 0x04, 0x12, 0x02, 0x08, 0x05], [0], true⟩,
      ⟨some [0x1A, 0x06, 0x0A, 0x04, 0x08, 0x64, 0x10, 0x01], [0], true⟩]
  exact ⟨hframed.parses, hunique⟩

/-! ### The rate of the line -/

def rateOf (frame : List UInt8) : Option ℕ :=
  match readFrame frame with
  | some (.baud code) => some code.rate
  | _ => none

/-- The rate of the Roomba after these frames: the last one named, or that of the start. -/
def rateAfter (frames : List (List UInt8)) : ℕ := (lastSome rateOf frames).getD 115200

def InStep (written : List (ℕ × List UInt8)) : Prop :=
  ∀ before entry after, written = before ++ entry :: after →
    entry.1 = rateAfter (before.map Prod.snd)

/-- The post selects a baud rate other than that of the start, which is the last of the enum. -/
def Post.NamesOtherRate (post : Post) : Prop :=
  ∃ leaf, Selects post.nodes 2 2 leaf ∧ (lastValue 1 leaf).toNat < 11

lemma rateAfter_cons (f : List UInt8) (before : List (List UInt8)) : rateAfter (f :: before) =
    match lastSome rateOf before with
    | some rate => rate
    | none => (rateOf f).getD 115200 := by
  rw [rateAfter, lastSome_cons]
  cases lastSome rateOf before <;> rfl

/-- The rate of the Roomba stays if and only if no frame comes after one that names another. -/
lemma inStep_iff_pairwise (frames : List (List UInt8)) :
    (∀ before frame after, frames = before ++ frame :: after → rateAfter before = 115200) ↔
      frames.Pairwise fun f _ => (rateOf f).getD 115200 = 115200 := by
  induction frames with
  | nil => simp
  | cons f frames ih =>
    rw [List.pairwise_cons, ← ih]
    constructor
    · intro hall
      refine ⟨fun g hg => ?_, fun before g after hsplit => ?_⟩
      · obtain ⟨g', after, rfl⟩ := List.exists_cons_of_ne_nil (List.ne_nil_of_mem hg)
        simpa [rateAfter_cons] using hall [f] g' after rfl
      · have hbefore := hall (f :: before) g after (by rw [hsplit]; rfl)
        rw [rateAfter_cons] at hbefore
        rw [rateAfter]
        rcases hlast : lastSome rateOf before with _ | rate
        · rfl
        · rwa [hlast] at hbefore
    · rintro ⟨hf, hall⟩ (_ | ⟨f', before⟩) g after hsplit
      · rfl
      · obtain ⟨rfl, hframes⟩ := List.cons.inj hsplit
        have hbefore := hall before g after hframes
        rw [rateAfter] at hbefore
        rw [rateAfter_cons]
        rcases hlast : lastSome rateOf before with _ | rate
        · exact hf g (by simp [hframes])
        · rwa [hlast] at hbefore

lemma frames_written (frames : List (List UInt8)) (uart : Uart) :
    (frames.foldl uartWriteBytes uart).written =
        uart.written ++ frames.map (Prod.mk uart.config.baudRate) ∧
      (frames.foldl uartWriteBytes uart).config = uart.config := by
  induction frames generalizing uart with
  | nil => simp
  | cons f frames ih =>
    obtain ⟨hwritten, hconfig⟩ := ih (uartWriteBytes uart f)
    rw [List.foldl_cons, hwritten, hconfig]
    simp [uartWriteBytes]

/-- The frames of the posts are written one after the other, all at the rate of the start. -/
lemma run_written (posts : List Post) (h : (run posts).halted = false) :
    (run posts).uart.written =
        (posts.flatMap fun post => (wireAnswer post.nodes).frames).map (Prod.mk 115200) ∧
      (run posts).uart.config.baudRate = 115200 := by
  induction posts using List.reverseRecOn with
  | nil => exact ⟨rfl, rfl⟩
  | append_singleton posts post ih =>
    rw [run_concat] at h ⊢
    rcases hndRoombaCmdPost_cases (run posts) post with ⟨-, -, hhalt⟩ | ⟨actions, hw, -, huart, -⟩
    · rw [h] at hhalt
      cases hhalt
    obtain ⟨hwritten, hrate⟩ := ih hw
    obtain ⟨happend, hconfig⟩ := frames_written (wireAnswer post.nodes).frames (run posts).uart
    rw [huart, happend, hconfig, hwritten, hrate]
    simp

lemma rateOf_frame (c : Command) : rateOf c.frame =
    match c with
    | .baud code => some code.rate
    | _ => none := by
  rw [rateOf, readFrame_frame]
  cases c <;> rfl

lemma roombaAnswer_rate_iff (member : ℕ) (value : UInt32) :
    (∃ code, roombaAnswer member value = .sent (.baud code) ∧ code.rate ≠ 115200) ↔
      member = 2 ∧ value.toNat < 11 := by
  rcases member with _ | _ | _ | _ | _ | _ | _ | _ | n
  · simp [roombaAnswer]
  · simp [roombaAnswer]
  · simp only [roombaAnswer]
    rcases value.toNat with _ | _ | _ | _ | _ | _ | _ | _ | _ | _ | _ | _ | n <;>
      simp [declared, OpBaudCode.rate]
  · rcases hm : [Mode.safe, .full][value.toNat]? with _ | m <;> simp [roombaAnswer, declared, hm]
  · rcases hm : [CleanMode.clean, .max, .spot, .dock][value.toNat]? with _ | m <;>
      simp [roombaAnswer, declared, hm]
  · simp [roombaAnswer]
  · simp [roombaAnswer]
  · simp [roombaAnswer]
  · simp [roombaAnswer]

lemma actuatorAnswer_ne_baud (member : ℕ) (value value' : UInt32) (code : OpBaudCode) :
    actuatorAnswer member value value' ≠ .sent (.baud code) := by
  rcases member with _ | _ | _ | _ | _ | _ | _ | _ | _ | _ | _ | _ | _ | n <;>
    simp [actuatorAnswer]

/-- A post names another rate when the answer to it is to send one. -/
lemma namesOtherRate_iff_answer (post : Post) : post.NamesOtherRate ↔
    ∃ code, wireAnswer post.nodes = .sent (.baud code) ∧ code.rate ≠ 115200 := by
  have hselects := selects_iff (S := fun a => ∃ code, a = .sent (.baud code) ∧ code.rate ≠ 115200)
    (P := fun outer member value => outer = 2 ∧ member = 2 ∧ value.toNat < 11) (by simp)
    (by simpa using roombaAnswer_rate_iff) (by simp [actuatorAnswer_ne_baud])
    (fun _ _ _ h => Or.inl h.1) post.nodes
  rw [← hselects]
  constructor
  · rintro ⟨leaf, hsel, hlt⟩
    exact ⟨2, 2, leaf, hsel, rfl, rfl, hlt⟩
  · rintro ⟨outer, member, leaf, hsel, rfl, rfl, hlt⟩
    exact ⟨leaf, hsel, hlt⟩

lemma namesOtherRate_iff (post : Post) : post.NamesOtherRate ↔
    ∃ f ∈ (wireAnswer post.nodes).frames, (rateOf f).getD 115200 ≠ 115200 := by
  rw [namesOtherRate_iff_answer]
  constructor
  · rintro ⟨code, hsent, hrate⟩
    rw [hsent]
    exact ⟨_, List.mem_singleton_self _, by rw [rateOf_frame]; exact hrate⟩
  · rintro ⟨f, hf, hrate⟩
    rcases hanswer : wireAnswer post.nodes with c | _ | _ <;> rw [hanswer] at hf
    · obtain rfl := List.mem_singleton.mp hf
      rw [rateOf_frame] at hrate
      rcases c with _ | _ | code | _ | _ | _ | _
      case baud => exact ⟨code, rfl, hrate⟩
      all_goals exact absurd rfl hrate
    · cases hf
    · cases hf

/-- **Both ends of the line keep the same speed** if and only if no post that names another rate is
followed by one that writes a frame. -/
theorem inStep_iff (posts : List Post) (h : (run posts).halted = false) :
    InStep (run posts).uart.written ↔
      posts.Pairwise fun post later => post.NamesOtherRate → ¬ Moves later.nodes := by
  obtain ⟨hwritten, -⟩ := run_written posts h
  have hentries : InStep (run posts).uart.written ↔ ∀ before frame after,
      (posts.flatMap fun post => (wireAnswer post.nodes).frames) = before ++ frame :: after →
        rateAfter before = 115200 := by
    rw [hwritten]
    constructor
    · intro hstep before frame after hsplit
      have hmap := congrArg (List.map (Prod.mk 115200)) hsplit
      rw [List.map_append, List.map_cons] at hmap
      have hrate := hstep _ _ _ hmap
      simpa [Function.comp_def] using hrate.symm
    · intro hall before entry after hsplit
      obtain ⟨before, rest, hframes, rfl, hrest⟩ := List.map_eq_append_iff.mp hsplit
      obtain ⟨frame, after, rfl, rfl, -⟩ := List.map_eq_cons_iff.mp hrest
      simpa [Function.comp_def] using (hall before frame after hframes).symm
  have hpair : ∀ post later : Post, (∀ f ∈ (wireAnswer post.nodes).frames,
      ∀ g ∈ (wireAnswer later.nodes).frames, (rateOf f).getD 115200 = 115200) ↔
        (post.NamesOtherRate → ¬ Moves later.nodes) := by
    intro post later
    rw [namesOtherRate_iff, ← frames_eq_nil_iff, List.eq_nil_iff_forall_not_mem]
    constructor
    · rintro hall ⟨f, hf, hrate⟩ g hg
      exact hrate (hall f hf g hg)
    · intro hnone f hf g hg
      by_contra hrate
      exact hnone ⟨f, hf, hrate⟩ g hg
  have hsingle : ∀ post ∈ posts, (wireAnswer post.nodes).frames.Pairwise fun f _ =>
      (rateOf f).getD 115200 = 115200 := by
    intro post _
    cases wireAnswer post.nodes <;> simp [Answer.frames]
  rw [hentries, inStep_iff_pairwise, List.pairwise_flatMap]
  simp only [hpair]
  exact and_iff_right hsingle

/-- A post of a baud rate as the last one of a run is in step. -/
theorem inStep_iff_baud_last : InStep (run
    [⟨some [0x1A, 0x06, 0x0A, 0x04, 0x08, 0x64, 0x10, 0x01], [0], true⟩,
      ⟨some [0x12, 0x04, 0x12, 0x02, 0x08, 0x05], [0], true⟩]).uart.written := by
  refine (inStep_iff _ (by decide)).mpr ?_
  rw [List.pairwise_pair, namesOtherRate_iff]
  rintro ⟨f, hf, hrate⟩
  exact absurd hrate (by
    obtain rfl : f = [137, 0, 100, 0, 1] := List.mem_singleton.mp hf
    decide)

/-- A baud rate of 9600 is named, and a drive follows at 115200. -/
theorem baud_then_drive : ¬ ∀ posts, (run posts).halted = false →
    InStep (run posts).uart.written := by
  intro h
  have hstep := h [⟨some [0x12, 0x04, 0x12, 0x02, 0x08, 0x05], [0], true⟩,
    ⟨some [0x1A, 0x06, 0x0A, 0x04, 0x08, 0x64, 0x10, 0x01], [0], true⟩] (by decide)
  have hrate := hstep [(115200, [129, 5])] (115200, [137, 0, 100, 0, 1]) [] (by decide)
  exact absurd hrate (by decide)

end RoombaBrain.Endpoint
