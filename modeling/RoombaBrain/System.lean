import RoombaBrain.Boot
import RoombaBrain.EndpointTask
import RoombaBrain.Orders
import RoombaBrain.Wifi

/-!
The whole program.

`app_main` sets up the UART and the wifi, and creates the task. Meanwhile the driver posts events,
the event loop handles them, and the task waits for the wifi and serves the endpoint. Any of them
may act next. A check that fails in `app_main`, a bad access to memory in a handler of the
endpoint, or a call with an event group that could not be made, ends them all.
-/

namespace RoombaBrain.System

open RoombaBrain.PbDecode RoombaBrain.PbEncode RoombaBrain.RpcSchema RoombaBrain.EventGroups
  RoombaBrain.Runs RoombaBrain.Programs RoombaBrain.Orders

variable {G : Type} (api : Api G) (config : Boot.Config)

/-- `hnd_roomba_cmd_get`: the data of its response. -/
def hndRoombaCmdGet : List UInt8 :=
  let cmdResp := PbStruct.zero.setNum 1 0
  let ostream := (pbEncode (pbOstreamFromBuffer 120) responseFields cmdResp).2
  ostream.state.take ostream.bytesWritten

/-- The program. `wifi` is there when `xEventGroupCreate` has returned, with or without a group, and
`endpoint` when `uart_driver_install` has. `waiting` is set while the task is in
`xEventGroupWaitBits`, `gets` holds the responses to requests for the resource, and `faulted` is
set by a call with the group `NULL`. -/
structure World (G : Type) where
  appMain : Boot.Calls Unit × History Boot.Call Boot.Return
  wifi : Option (Wifi.World G)
  task : Option EndpointTask.State
  waiting : Bool
  endpoint : Option Endpoint.World
  gets : List (List UInt8)
  faulted : Bool

def World.start : World G := ⟨(Boot.boot config).start, none, none, false, none, [], false⟩

inductive Act
  /-- the call that `app_main` is in returns -/
  | returns (ret : Boot.Return)
  /-- `xTaskCreate` makes the task ready -/
  | create
  /-- the driver, the event loop, or the task that calls `xEventGroupWaitBits` -/
  | wifi (act : Wifi.Act)
  /-- the call that the task is in returns -/
  | task (ret : EndpointTask.Return)
  /-- `coap_read` calls `hnd_roomba_cmd_post` -/
  | post (post : Endpoint.Post)
  /-- `coap_read` calls `hnd_roomba_cmd_get` -/
  | get

def World.ended (w : World G) : Bool :=
  w.appMain.1.isAborted || w.endpoint.any Endpoint.World.halted || w.faulted

/-- `wifi_event_group` is a group, and not `NULL`. -/
def World.HasGroup (w : World G) : Prop := (.xEventGroupCreate, .group true) ∈ w.appMain.2

def uartInstall : Boot.Call := .uartDriverInstall Boot.roombaUart 2048 0 10

def World.HasDriver (w : World G) : Prop := (uartInstall, .err .ok) ∈ w.appMain.2

instance (w : World G) : Decidable w.HasGroup := inferInstanceAs (Decidable (_ ∈ _))
instance (w : World G) : Decidable w.HasDriver := inferInstanceAs (Decidable (_ ∈ _))

/-- The call of `app_main` may return this. `xTaskCreate` returns whether there is a task. -/
def World.returnsTo (w : World G) : Boot.Call → Boot.Return → Bool
  | .xTaskCreate _ _ _, ret => decide (ret = .created w.task.isSome)
  | c, ret => c.returns ret

/-- `hnd_roomba_cmd_post`. `uart_write_bytes` writes nothing when there is no driver. -/
def World.handle (w : World G) (e : Endpoint.World) (post : Endpoint.Post) : Endpoint.World :=
  if w.HasDriver then Endpoint.hndRoombaCmdPost e post
  else { Endpoint.hndRoombaCmdPost e post with uart := e.uart }

/-- What a call of `app_main` sets up. The state of a group that could not be made is never looked
at. -/
def World.after (w : World G) : Boot.Call → World G
  | .xEventGroupCreate => { w with wifi := some (Wifi.World.start api) }
  | .uartDriverInstall _ _ _ _ => { w with endpoint := some Endpoint.World.start }
  | _ => w

def World.handlesEvents (w : World G) : Bool :=
  (w.appMain.2.map Prod.fst ++ w.appMain.1.current.toList).any Boot.Call.isEventLoopInit

def World.inWait (w : World G) : Bool :=
  w.task.any fun t => decide (t.call = .wifiWaitActive)

def World.inRead (w : World G) : Bool :=
  w.task.any fun t => decide (t.task.place = .coapRead)

/-- The task may call `xEventGroupWaitBits` once, and the others may act when there is a handler
for events. -/
def World.allows (w : World G) : Wifi.Act → Bool
  | .wait => w.inWait && !w.waiting
  | .post _ | .take | .call | .finish => w.handlesEvents

def World.waitingAfter (w : World G) : Wifi.Act → Bool
  | .wait => true
  | .post _ | .take | .call | .finish => w.waiting

/-- The call that the task is in may return: `wifi_wait_active` when the task is not blocked. -/
def World.mayReturn (w : World G) : Bool :=
  !w.inWait || (w.waiting && w.wifi.any fun v => (api.waiting v.group).isNone)

def World.step (w : World G) (act : Act) : Option (World G) :=
  if w.ended then none
  else match act with
    | .returns ret =>
      match w.appMain.1 with
      | .call c next =>
        if w.returnsTo c ret then
          some { w.after api c with appMain := (next ret, w.appMain.2 ++ [(c, ret)]) }
        else none
      | .done _ | .aborted => none
    | .create =>
      match w.appMain.1, w.task with
      | .call (.xTaskCreate _ _ _) _, none =>
        some { w with task := some EndpointTask.service.start }
      | _, _ => none
    | .wifi act =>
      if w.allows act then w.wifi.bind fun v =>
        if v.usesGroup act ∧ ¬ w.HasGroup then some { w with faulted := true }
        else (v.step api act).map fun v' =>
          { w with wifi := some v', waiting := w.waitingAfter act }
      else none
    | .task ret =>
      if w.mayReturn api then w.task.bind fun t => (t.step ret).map fun t' =>
        { w with task := some t', waiting := false }
      else none
    | .post post =>
      if w.inRead then w.endpoint.map fun e => { w with endpoint := some (w.handle e post) }
      else none
    | .get => if w.inRead then some { w with gets := w.gets ++ [hndRoombaCmdGet] } else none

def system : Machine (World G) Act := ⟨World.start config, World.step api⟩

/-! ### What a step can do -/

inductive Steps (w : World G) : Act → World G → Prop
  | returns {c next} (ret : Boot.Return) (hcall : w.appMain.1 = .call c next)
      (hreturns : w.returnsTo c ret = true) :
      Steps w (.returns ret)
        { w.after api c with appMain := (next ret, w.appMain.2 ++ [(c, ret)]) }
  | create {name depth priority next}
      (hcall : w.appMain.1 = .call (.xTaskCreate name depth priority) next)
      (htask : w.task = none) :
      Steps w .create { w with task := some EndpointTask.service.start }
  | wifi {act v v'} (hallows : w.allows act = true) (hwifi : w.wifi = some v)
      (hgroup : v.usesGroup act = true → w.HasGroup) (hstep : v.step api act = some v') :
      Steps w (.wifi act) { w with wifi := some v', waiting := w.waitingAfter act }
  | fault {act v} (hallows : w.allows act = true) (hwifi : w.wifi = some v)
      (huses : v.usesGroup act = true) (hnull : ¬ w.HasGroup) :
      Steps w (.wifi act) { w with faulted := true }
  | task {ret t t'} (hreturn : w.mayReturn api = true) (htask : w.task = some t)
      (hstep : t.step ret = some t') :
      Steps w (.task ret) { w with task := some t', waiting := false }
  | post {e} (post : Endpoint.Post) (hread : w.inRead = true) (hendpoint : w.endpoint = some e) :
      Steps w (.post post) { w with endpoint := some (w.handle e post) }
  | get (hread : w.inRead = true) : Steps w .get { w with gets := w.gets ++ [hndRoombaCmdGet] }

variable {api config} {w w' : World G}

lemma steps_of_step {act : Act} (h : w.step api act = some w') :
    w.ended = false ∧ Steps api w act w' := by
  unfold World.step at h
  split at h
  · cases h
  · next hended =>
    refine ⟨by simpa using hended, ?_⟩
    cases act with
    | returns ret =>
      simp only at h
      split at h
      · next c next hcall =>
        split at h
        · next hreturns =>
          cases h
          exact .returns ret hcall hreturns
        · cases h
      · cases h
      · cases h
    | create =>
      simp only at h
      split at h
      · next hcall htask =>
        cases h
        exact .create hcall htask
      · cases h
    | wifi act =>
      simp only at h
      split at h
      · next hallows =>
        obtain ⟨v, hwifi, h⟩ := Option.bind_eq_some_iff.mp h
        split at h
        · next hnull =>
          cases h
          exact .fault hallows hwifi hnull.1 hnull.2
        · next hgroup =>
          obtain ⟨v', hstep, rfl⟩ := Option.map_eq_some_iff.mp h
          exact .wifi hallows hwifi (fun huses => by_contra fun hnull => hgroup ⟨huses, hnull⟩)
            hstep
      · cases h
    | task ret =>
      simp only at h
      split at h
      · next hreturn =>
        obtain ⟨t, htask, h⟩ := Option.bind_eq_some_iff.mp h
        obtain ⟨t', hstep, rfl⟩ := Option.map_eq_some_iff.mp h
        exact .task hreturn htask hstep
      · cases h
    | post post =>
      simp only at h
      split at h
      · next hread =>
        obtain ⟨e, hendpoint, rfl⟩ := Option.map_eq_some_iff.mp h
        exact .post post hread hendpoint
      · cases h
    | get =>
      simp only at h
      split at h
      · next hread =>
        cases h
        exact .get hread
      · cases h

lemma halted_of_ended (hended : w.ended = false) {e : Endpoint.World} (he : w.endpoint = some e) :
    e.halted = false := by
  simp only [World.ended, he, Option.any_some, Bool.or_eq_false_iff] at hended
  exact hended.1.2

lemma ended_endpoint (hended : w.ended = false) {e : Endpoint.World} (he : e.halted = false) :
    World.ended { w with endpoint := some e } = false := by
  simp only [World.ended, Bool.or_eq_false_iff] at hended
  simp only [World.ended, Option.any_some, Bool.or_eq_false_iff]
  exact ⟨⟨hended.1.1, he⟩, hended.2⟩

/-! ### The parts -/

lemma after_task (w : World G) (c : Boot.Call) : (w.after api c).task = w.task := by
  cases c <;> rfl

lemma after_waiting (w : World G) (c : Boot.Call) : (w.after api c).waiting = w.waiting := by
  cases c <;> rfl

lemma after_gets (w : World G) (c : Boot.Call) : (w.after api c).gets = w.gets := by
  cases c <;> rfl

lemma after_wifi (api : Api G) (w : World G) (c : Boot.Call) : (w.after api c).wifi = w.wifi ∨
    c = .xEventGroupCreate ∧ (w.after api c).wifi = some (Wifi.World.start api) := by
  cases c with
  | xEventGroupCreate => exact Or.inr ⟨rfl, rfl⟩
  | _ => exact Or.inl rfl

lemma after_endpoint (api : Api G) (w : World G) (c : Boot.Call) :
    c ≠ uartInstall ∧ (w.after api c).endpoint = w.endpoint ∨
      (∃ uart rx tx queue, c = .uartDriverInstall uart rx tx queue) ∧
        (w.after api c).endpoint = some Endpoint.World.start := by
  cases c with
  | uartDriverInstall => exact Or.inr ⟨⟨_, _, _, _, rfl⟩, rfl⟩
  | _ => exact Or.inl ⟨Boot.Call.noConfusion, rfl⟩

lemma returns_of_returnsTo {c : Boot.Call} {ret : Boot.Return} (h : w.returnsTo c ret = true) :
    c.returns ret = true := by
  cases c with
  | xTaskCreate =>
    obtain rfl := of_decide_eq_true h
    rfl
  | _ => exact h

lemma part_appMain : Machine.Part (system api config) (Boot.boot config)
    fun w => some w.appMain where
  start := Or.inr rfl
  step w act w' h := by
    cases (steps_of_step h).2 with
    | returns ret hcall hreturns =>
      refine Or.inr (Or.inr ⟨_, ret, _, rfl, ?_, rfl⟩)
      simp only [Boot.boot, Prog.machine, hcall, if_pos (returns_of_returnsTo hreturns)]
    | create | wifi | fault | task | post | get => exact Or.inl rfl

lemma part_wifi : Machine.Part (system api config) (Wifi.system api) World.wifi where
  start := Or.inl rfl
  step w act w' h := by
    cases (steps_of_step h).2 with
    | @returns c next ret hcall =>
      rcases after_wifi api w c with hsame | ⟨-, hnew⟩
      · exact Or.inl hsame
      · exact Or.inr (Or.inl hnew)
    | wifi hallows hwifi hgroup hstep => exact Or.inr (Or.inr ⟨_, _, _, hwifi, hstep, rfl⟩)
    | create | fault | task | post | get => exact Or.inl rfl

lemma part_task : Machine.Part (system api config) EndpointTask.service World.task where
  start := Or.inl rfl
  step w act w' h := by
    cases (steps_of_step h).2 with
    | returns ret hcall => exact Or.inl (after_task w _)
    | create => exact Or.inr (Or.inl rfl)
    | task hreturn htask hstep => exact Or.inr (Or.inr ⟨_, _, _, htask, hstep, rfl⟩)
    | wifi | fault | post | get => exact Or.inl rfl

end RoombaBrain.System
