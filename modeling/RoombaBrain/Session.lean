import RoombaBrain.Progress
import RoombaBrain.Requests

/-!
Sessions.

A client encodes its calls with nanopb, each with a zero byte at its end, and posts them one after
the other. The UART has its driver, no call has an empty submessage, and each response has memory
or needs none. Then the Roomba is told what the calls say, in their order, and the client gets
their ids back in the same order. The memory behind the payloads does not matter.
-/

namespace RoombaBrain.Session

open RoombaBrain.PbDecode RoombaBrain.PbEncode RoombaBrain.PbWire RoombaBrain.EventGroups
  RoombaBrain.Runs RoombaBrain.Roomba RoombaBrain.RpcSchema RoombaBrain.Rpc RoombaBrain.Dispatch
  RoombaBrain.Perform RoombaBrain.Response RoombaBrain.Requests RoombaBrain.Endpoint
  RoombaBrain.Orders RoombaBrain.Boot RoombaBrain.System RoombaBrain.Serving RoombaBrain.Progress

/-! ### Calls -/

/-- The post carries the call: its payload is what `pb_encode_nullterminated` makes of the struct.
No empty submessage is written in it, and there is memory for the response. -/
structure Carries (src : PbStruct) (post : Post) : Prop where
  payload : ∃ bufsize buf, pbEncodeNullterminated (pbOstreamFromBuffer bufsize) requestFields src =
    (.ok (), buf) ∧ post.payload = some buf.state
  full : ¬ Hollow requestFields src
  answerable : post.mallocOk = true ∨ src.num 1 = 0

def framesOf (src : PbStruct) : List (List UInt8) :=
  (frames (handleRpcRequest (rpcRequest src))).getD []

/-- From `w` to `w'` the calls were served: their frames were written, and the responses to them
give their ids back. -/
structure Served (srcs : List PbStruct) (w w' : Endpoint.World) : Prop where
  line : w'.uart.stream = w.uart.stream ++ (srcs.flatMap framesOf).flatten
  responses : ∃ responses, w'.responses = w.responses ++ responses ∧
    responses.map decodeResponse = srcs.map fun src => some (src.num 1)
  alive : w'.halted = false

lemma nullterminated_writes (src : PbStruct) :
    Writes (fun stream => pbEncodeNullterminated stream requestFields src)
      (wire requestFields src ++ [0]) :=
  (pbEncode_writes requestFields_ok (length_request src)).andThen (writes_pbWrite [0])

lemma Carries.payload_eq {src : PbStruct} {post : Post} (h : Carries src post) :
    post.payload = some (wire requestFields src ++ [0]) := by
  obtain ⟨bufsize, buf, hencode, hpayload⟩ := h.payload
  obtain ⟨-, rfl⟩ := (nullterminated_writes src).buffer_ok hencode
  exact hpayload

/-- What is entered of the post is the call. -/
lemma Carries.entered {src : PbStruct} {post : Post} (h : Carries src post) :
    Readable post = true ∧ (wireAnswer post.nodes).frames = framesOf src ∧
      answeredId post = src.num 1 := by
  have hmem : wire requestFields src ++ [0] ++ post.after =
      wire requestFields src ++ 0 :: post.after := by simp
  have hnodes : post.nodes =
      (Perform.entered (wire requestFields src ++ 0 :: post.after)).nodes := by
    unfold Post.nodes
    rw [h.payload_eq, ← hmem]
  obtain ⟨hanswer, -, hid⟩ := entered_wire h.full post.after
  refine ⟨?_, ?_, ?_⟩
  · rw [Readable, h.payload_eq]
    exact decide_eq_true (by simp)
  · rw [hnodes, hanswer, framesOf, (handleRpcRequest_does (rpcRequest src)).frames]
    rfl
  · rw [answeredId, hnodes, ← hid]
    exact (num_leaf _ 1).symm

lemma served_step {src : PbStruct} {post : Post} (h : Carries src post) {w : Endpoint.World}
    (hw : w.halted = false) : Served [src] w (hndRoombaCmdPost w post) := by
  obtain ⟨hread, hframes, hid⟩ := h.entered
  have hanswer : Answerable post = true := by
    unfold Answerable
    rw [hid, Bool.or_eq_true, decide_eq_true_eq]
    exact h.answerable
  rw [hndRoombaCmdPost_eq hw post, if_pos hread, if_pos hanswer]
  refine ⟨?_, ⟨[responseBytes (answeredId post)], rfl, ?_⟩, by simp [hanswer]⟩
  · rw [← frames_eq, stream_foldl, hframes, List.flatMap_singleton]
  · rw [List.map_singleton, List.map_singleton, decode_responseBytes, hid]

lemma Served.trans {srcs srcs' : List PbStruct} {w w' w'' : Endpoint.World}
    (h : Served srcs w w') (h' : Served srcs' w' w'') : Served (srcs ++ srcs') w w'' := by
  obtain ⟨responses, hresponses, hids⟩ := h.responses
  obtain ⟨responses', hresponses', hids'⟩ := h'.responses
  refine ⟨?_, ⟨responses ++ responses', ?_, ?_⟩, h'.alive⟩
  · rw [h'.line, h.line, List.flatMap_append, List.flatten_append, List.append_assoc]
  · rw [hresponses', hresponses, List.append_assoc]
  · rw [List.map_append, List.map_append, hids, hids']

lemma served_foldl {srcs : List PbStruct} {posts : List Post} (h : List.Forall₂ Carries srcs posts)
    {w : Endpoint.World} (hw : w.halted = false) :
    Served srcs w (posts.foldl hndRoombaCmdPost w) := by
  induction h generalizing w with
  | nil => exact ⟨by simp, ⟨[], by simp, rfl⟩, hw⟩
  | cons hcarries _ ih =>
    have hfirst := served_step hcarries hw
    exact hfirst.trans (ih hfirst.alive)

/-! ### The whole program -/

variable {G : Type} {api : Api G} {config : Config}

/-- **A session is served as it is posted**, in every run of the whole program with the driver:
when the posts handled so far carry the calls, the line holds the frames of the calls and nothing
else, and the responses give their ids back. -/
theorem session_kept (hapi : api.Documented) (config : Config) (acts : List Act)
    (w : System.World G) (h : (system api config).run acts = some w) (hdriver : w.HasDriver)
    (e : Endpoint.World) (he : w.endpoint = some e) (srcs : List PbStruct)
    (hposts : List.Forall₂ Carries srcs (posts acts)) : Served srcs Endpoint.World.start e := by
  have heq := endpoint_eq hapi h he
  rw [decide_eq_true hdriver] at heq
  rw [heq]
  exact served_foldl hposts rfl

def fullMode : PbStruct := messageStruct ⟨7, .mode 1⟩

def fullModePost : Post :=
  ⟨some [0x08, 0x07, 0x12, 0x04, 0x1A, 0x02, 0x08, 0x01, 0x00], [0xFF, 0x08], true⟩

lemma fullMode_carries : Carries fullMode fullModePost :=
  ⟨⟨64, _, (nullterminated_writes fullMode).buffer_room (by decide), by decide⟩, by decide,
    Or.inl rfl⟩

/-- The session of one call, in a whole run. -/
theorem session_kept_full : ∃ w e, (system eventGroups ⟨"myssid", "mypassword"⟩).run
    (startUp ++ [.post fullModePost]) = some w ∧ w.endpoint = some e ∧
      Served [fullMode] Endpoint.World.start e := by
  have hposts : List.Forall₂ Carries [fullMode] (posts (startUp ++ [.post fullModePost])) :=
    .cons fullMode_carries .nil
  exact ⟨_, _, rfl, rfl, session_kept documented_eventGroups ⟨"myssid", "mypassword"⟩
    (startUp ++ [.post fullModePost]) _ rfl (by decide) _ rfl [fullMode] hposts⟩

/-- Posts that the endpoint survives are handled one after the other while the task is in
`coap_read`. -/
lemma run_posts {w : System.World G} (hended : w.ended = false) (hdriver : w.HasDriver)
    (hread : w.inRead = true) {e : Endpoint.World} (he : w.endpoint = some e)
    {srcs : List PbStruct} {posts : List Post} (h : List.Forall₂ Carries srcs posts) :
    (system api config).runFrom w (posts.map .post) =
      some { w with endpoint := some (posts.foldl hndRoombaCmdPost e) } := by
  induction h generalizing w e with
  | nil => rw [List.map_nil, Machine.runFrom_nil, List.foldl_nil, ← he]
  | @cons src post srcs posts hcarries _ ih =>
    have hhandle : w.handle e post = hndRoombaCmdPost e post := if_pos hdriver
    have hended' := ended_endpoint hended
      (served_step hcarries (halted_of_ended hended he)).alive
    rw [List.map_cons, Machine.runFrom_cons, step_post hended hread he post, Option.bind_some,
      hhandle]
    exact ih (w := { w with endpoint := some (hndRoombaCmdPost e post) }) hended' hdriver hread
      rfl

/-- **A session can always be served**: from every state that a run comes to, in which there are
the driver and the group, the task is in `wifi_wait_active`, and an address is the last that was
posted about the link, the event loop and the task by themselves can come to where all calls of a
session are served. -/
theorem session_served (hapi : api.Documented) (config : Config) (acts : List Act)
    (w : System.World G) (h : (system api config).run acts = some w) (hended : w.ended = false)
    (hdriver : w.HasDriver) (hgroup : w.HasGroup) (hin : w.inWait = true) (v : Wifi.World G)
    (hv : w.wifi = some v) (hup : (v.posted.filterMap Wifi.linkUp).getLast? = some true)
    (srcs : List PbStruct) (posts : List Post) (hposts : List.Forall₂ Carries srcs posts) :
    ∃ acts' w' e e', (∀ act ∈ acts', Act.own act) ∧
      (system api config).run (acts ++ acts' ++ posts.map .post) = some w' ∧
      w.endpoint = some e ∧ w'.endpoint = some e' ∧ Served srcs e e' := by
  obtain ⟨acts', w', hown, hrun, hended', hread, happ, hendpoint, hne⟩ :=
    comes_to_read hapi h hended hgroup hin hv hup
  obtain ⟨e, he⟩ := Option.ne_none_iff_exists'.mp hne
  have he' : w'.endpoint = some e := hendpoint.trans he
  have hdriver' : w'.HasDriver := by
    rw [System.World.HasDriver, happ]
    exact hdriver
  refine ⟨acts', { w' with endpoint := some (posts.foldl hndRoombaCmdPost e) }, e, _, hown, ?_, he,
    rfl, served_foldl hposts (halted_of_ended hended' he')⟩
  rw [Machine.run_append, hrun]
  exact run_posts hended' hdriver' hread he' hposts

/-- The session of two calls, when an address is posted as soon as `app_main` is through. -/
theorem session_served_full : ∃ acts' w' e e', (∀ act ∈ acts', Act.own act) ∧
    (system eventGroups ⟨"myssid", "mypassword"⟩).run
      (bootUp ++ [.wifi (.post (.staGotIp 1))] ++ acts' ++
        [fullModePost, fullModePost].map .post) = some w' ∧
    some Endpoint.World.start = some e ∧ w'.endpoint = some e' ∧
      Served [fullMode, fullMode] e e' :=
  session_served documented_eventGroups ⟨"myssid", "mypassword"⟩
    (bootUp ++ [.wifi (.post (.staGotIp 1))]) _ rfl rfl (by decide) (by decide) rfl _ rfl rfl
    [fullMode, fullMode] [fullModePost, fullModePost]
    (.cons fullMode_carries (.cons fullMode_carries .nil))

end RoombaBrain.Session
