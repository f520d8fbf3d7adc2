import Mathlib.Data.List.Forall2
import RoombaBrain.Endpoint

/-!
What the Roomba is told.

The endpoint carries out one post after the other, until one of them ends the program. The orders
of a run are the commands of the posts carried out, at most one each. The line holds their frames
and nothing else, so that the Roomba is never told anything that no command stands for.
-/

namespace RoombaBrain.Orders

open RoombaBrain.PbDecode RoombaBrain.PbMessage RoombaBrain.PbEncode RoombaBrain.Roomba
  RoombaBrain.Commands RoombaBrain.RpcSchema RoombaBrain.Rpc RoombaBrain.Dispatch
  RoombaBrain.Perform RoombaBrain.Response RoombaBrain.Endpoint

/-! ### Posts -/

/-- The request of a post can be read: there is a payload, and a zero byte somewhere from its
start on. -/
def Readable (post : Post) : Bool :=
  match post.payload with
  | some p => decide (0 ∈ p ++ post.after)
  | none => false

def answeredId (post : Post) : UInt32 := lastValue 1 post.nodes

def Answerable (post : Post) : Bool := post.mallocOk || decide (answeredId post = 0)

def Survived (post : Post) : Bool := Readable post && Answerable post

def commandOf (post : Post) : Option Command :=
  match wireAnswer post.nodes with
  | .sent c => some c
  | .logged | .ignored => none

/-- The posts that are carried out: one without memory for its response still is, but ends the
program. -/
def carriedOut : List Post → List Post
  | [] => []
  | post :: posts =>
    if Survived post then post :: carriedOut posts
    else if Readable post then [post]
    else []

def orders (posts : List Post) : List Command := (carriedOut posts).filterMap commandOf

/-! ### One post -/

lemma frames_eq (post : Post) :
    (wireAnswer post.nodes).frames = (commandOf post).toList.map Command.frame := by
  unfold commandOf
  cases wireAnswer post.nodes <;> rfl

lemma answer_nodes (post : Post) :
    answer (rpcRequest (storeAll post.nodes .zero)) = wireAnswer post.nodes := by
  unfold Post.nodes
  rcases post.payload with _ | p
  · rfl
  · exact answer_entered (p ++ post.after)

def callsOf (post : Post) : List Call :=
  calls (handleRpcRequest (rpcRequest (storeAll post.nodes .zero)))

lemma callsOf_sends (post : Post) : List.Forall₂ Sends (callsOf post) (commandOf post).toList := by
  have hdoes := handleRpcRequest_does (rpcRequest (storeAll post.nodes .zero))
  rw [answer_nodes] at hdoes
  unfold callsOf commandOf
  rcases hanswer : wireAnswer post.nodes with c | _ | _ <;> rw [hanswer] at hdoes
  · obtain ⟨call, hcall, hsends⟩ := hdoes
    rw [hcall]
    exact .cons hsends .nil
  · obtain ⟨format, which, hlog⟩ := hdoes
    rw [hlog]
    exact .nil
  · have hnil : handleRpcRequest (rpcRequest (storeAll post.nodes .zero)) = [] := hdoes
    rw [hnil]
    exact .nil

/-- A post that cannot be read ends the program, and another one has its effect. -/
lemma hndRoombaCmdPost_eq {w : World} (hw : w.halted = false) (post : Post) :
    hndRoombaCmdPost w post =
      if Readable post then
        { uart := ((commandOf post).toList.map Command.frame).foldl uartWriteBytes w.uart
          issued := w.issued ++ callsOf post
          responses := w.responses ++
            if Answerable post then [responseBytes (answeredId post)] else []
          halted := !Answerable post }
      else { w with halted := true } := by
  unfold hndRoombaCmdPost
  rw [if_neg (by simp [hw])]
  rcases hp : post.payload with _ | p
  · have hread : Readable post = false := by simp [Readable, hp]
    rw [hread]
    rfl
  · have hnodes : post.nodes = (entered (p ++ post.after)).nodes := by simp [Post.nodes, hp]
    by_cases hzero : 0 ∈ p ++ post.after
    · have hread : Readable post = true := by simp only [Readable, hp, hzero, decide_true]
      have hid : (storeAll post.nodes .zero).num 1 = answeredId post := num_leaf post.nodes 1
      rw [hread, if_pos rfl, ← frames_eq]
      simp only [dataAt, Option.map_some, performRpcRequest_eq post.mallocOk hzero, outcomeOf,
        respond_eq, ← hnodes, callsOf, rpcRequest, hid]
      by_cases hanswer : Answerable post = true
      · have hor : post.mallocOk = true ∨ answeredId post = 0 := by
          simpa [Answerable] using hanswer
        simp [hanswer, hor]
      · have hor : ¬ (post.mallocOk = true ∨ answeredId post = 0) := by
          simpa [Answerable] using hanswer
        simp [hanswer, hor]
    · have hread : Readable post = false := by simp only [Readable, hp, hzero, decide_false]
      simp only [dataAt, Option.map_some, performRpcRequest_unterminated post.mallocOk hzero, hread]
      rfl

/-! ### Runs -/

lemma foldl_halted {w : World} (hw : w.halted = true) (posts : List Post) :
    posts.foldl hndRoombaCmdPost w = w := by
  induction posts with
  | nil => rfl
  | cons post posts ih =>
    have hstep : hndRoombaCmdPost w post = w := by
      unfold hndRoombaCmdPost
      rw [if_pos hw]
    rw [List.foldl_cons, hstep, ih]

lemma stream_frames (cs : List Command) (uart : Uart) :
    ((cs.map Command.frame).foldl uartWriteBytes uart).stream =
      uart.stream ++ cs.flatMap Command.frame := by
  rw [stream_foldl, List.flatMap_def]

lemma orders_cons (post : Post) (posts : List Post) : orders (post :: posts) =
    if Readable post then
      (commandOf post).toList ++ if Answerable post then orders posts else []
    else [] := by
  unfold orders
  rw [carriedOut]
  cases hread : Readable post <;> cases hanswer : Answerable post <;>
    cases hcommand : commandOf post <;> simp [Survived, hread, hanswer, hcommand]

/-- What a program has come to that was in the state `w` and then handled the posts. -/
structure CarriesOut (w : World) (posts : List Post) (w' : World) : Prop where
  stream : w'.uart.stream = w.uart.stream ++ (orders posts).flatMap Command.frame
  issued : ∃ issued, w'.issued = w.issued ++ issued ∧ List.Forall₂ Sends issued (orders posts)
  responses : w'.responses = w.responses ++
    (posts.takeWhile Survived).map fun post => responseBytes (answeredId post)
  halted : w'.halted = true ↔ ∃ post ∈ posts, Survived post = false

lemma foldl_carriesOut {w : World} (hw : w.halted = false) (posts : List Post) :
    CarriesOut w posts (posts.foldl hndRoombaCmdPost w) := by
  induction posts generalizing w with
  | nil => exact ⟨by simp [orders, carriedOut], ⟨[], by simp, .nil⟩, by simp, by simp [hw]⟩
  | cons post posts ih =>
    rw [List.foldl_cons, hndRoombaCmdPost_eq hw post]
    have horders := orders_cons post posts
    by_cases hread : Readable post = true
    · rw [if_pos hread] at horders ⊢
      have hsends := callsOf_sends post
      by_cases hanswer : Answerable post = true
      · -- the post is answered, and the program goes on
        have hsurvived : Survived post = true := by simp [Survived, hread, hanswer]
        rw [if_pos hanswer] at horders
        obtain ⟨hstream, ⟨issued, hissued, hrest⟩, hresponses, hhalted⟩ := ih (w := {
          uart := ((commandOf post).toList.map Command.frame).foldl uartWriteBytes w.uart
          issued := w.issued ++ callsOf post
          responses := w.responses ++
            if Answerable post then [responseBytes (answeredId post)] else []
          halted := !Answerable post }) (by simp [hanswer])
        refine ⟨?_, ⟨callsOf post ++ issued, ?_, ?_⟩, ?_, ?_⟩
        · rw [hstream, horders, stream_frames, List.flatMap_append, List.append_assoc]
        · rw [hissued, List.append_assoc]
        · rw [horders]
          exact List.rel_append hsends hrest
        · rw [hresponses, if_pos hanswer, List.takeWhile_cons_of_pos hsurvived, List.map_cons,
            List.append_assoc]
          rfl
        · rw [hhalted]
          simp [hsurvived]
      · -- the program ends for want of memory
        have hsurvived : Survived post = false := by simp [Survived, hread, hanswer]
        rw [if_neg hanswer, List.append_nil] at horders
        rw [foldl_halted (by simp [hanswer])]
        refine ⟨?_, ⟨callsOf post, rfl, ?_⟩, ?_, ?_⟩
        · rw [horders, stream_frames]
        · rwa [horders]
        · simp [hanswer, hsurvived]
        · simp [hanswer, hsurvived]
    · -- the program ends at the read
      have hsurvived : Survived post = false := by simp [Survived, hread]
      rw [if_neg hread] at horders ⊢
      rw [foldl_halted rfl]
      exact ⟨by simp [horders], ⟨[], by simp, by rw [horders]; exact .nil⟩, by simp [hsurvived],
        by simp [hsurvived]⟩

/-- **A run carries out its orders**: the line holds the frames of the commands of the posts
carried out, one after the other, the calls issued are those that send them, and there is one
response for each post up to the first that ends the program, with its id. It is ended by a
request that cannot be read, or one whose response has no memory, and by nothing else. -/
theorem run_carries_out (posts : List Post) : CarriesOut World.start posts (run posts) :=
  foldl_carriesOut rfl posts

def neverTold : List RoombaOpcode :=
  [.reset, .stop, .schedule, .settime, .driveDirect, .drivePwm, .motors, .motorsPwm, .leds,
    .scheduleLeds, .digitLeds, .digitLedsAscii, .buttons, .song, .sensors, .queryList, .stream,
    .pause]

lemma issued_hndRoombaCmdPost (w : World) (post : Post) : ∃ calls,
    (hndRoombaCmdPost w post).issued = w.issued ++ calls ∧ calls.length ≤ 1 := by
  by_cases hw : w.halted = true
  · refine ⟨[], ?_, Nat.zero_le 1⟩
    rw [hndRoombaCmdPost, if_pos hw, List.append_nil]
  rw [Bool.not_eq_true] at hw
  rw [hndRoombaCmdPost_eq hw post]
  split
  · refine ⟨callsOf post, rfl, ?_⟩
    rw [(callsOf_sends post).length_eq]
    cases commandOf post <;> simp
  · exact ⟨[], (List.append_nil _).symm, Nat.zero_le 1⟩

lemma exists_sends {issued : List Call} {cs : List Command} (h : List.Forall₂ Sends issued cs)
    {call : Call} (hcall : call ∈ issued) : ∃ c, Sends call c := by
  induction h with
  | nil => cases hcall
  | @cons call' c issued cs hsends _ ih =>
    rcases List.mem_cons.mp hcall with rfl | hcall
    · exact ⟨c, hsends⟩
    · exact ih hcall

/-- **No run of posts makes the Roomba do what no command stands for**, such as a reset, and no
post that comes next more than one thing. -/
theorem never_told (posts : List Post) (post : Post) :
    (∀ call ∈ (run posts).issued, call.op ∉ neverTold) ∧
      ∃ calls, (run (posts ++ [post])).issued = (run posts).issued ++ calls ∧
        calls.length ≤ 1 := by
  constructor
  · obtain ⟨issued, hissued, hsends⟩ := (foldl_carriesOut (w := World.start) rfl posts).issued
    have hall : (run posts).issued = issued := hissued
    rw [hall]
    intro call hcall
    obtain ⟨c, hc⟩ := exists_sends hsends hcall
    rw [hc.op]
    rcases c with _ | _ | _ | (_ | _) | (_ | _ | _ | _) | _ | _ <;>
      simp [Command.op, neverTold]
  · rw [run_concat]
    exact issued_hndRoombaCmdPost (run posts) post

end RoombaBrain.Orders
