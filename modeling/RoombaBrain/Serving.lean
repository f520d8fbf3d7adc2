import RoombaBrain.System

/-!
What holds across the parts of the program.

The UART is set up before anything comes from the wifi, the task is created after all of
`app_main` went well, and nothing is served before the wifi had an address. Once it has one, the
task can come through to serve a post.
-/

namespace RoombaBrain.Serving

open RoombaBrain.EventGroups RoombaBrain.Runs RoombaBrain.Programs RoombaBrain.Boot
  RoombaBrain.System

variable {G : Type} {api : Api G} {config : Config}

/-! ### The address -/

/-- An address was posted, and its handler has set the bit. -/
def GotAddress (v : Wifi.World G) : Prop :=
  ∃ n ip, v.posted[n]? = some (.staGotIp ip) ∧
    (n, .xEventGroupSetBits Wifi.wifiConnectedBit) ∈ v.calls

lemma staGotIp_of_sets {event : Wifi.Event} {m : UInt32}
    (h : .xEventGroupSetBits m ∈ Wifi.wifiEventHandler event) :
    (∃ ip, event = .staGotIp ip) ∧ m = Wifi.wifiConnectedBit := by
  cases event with
  | staGotIp ip => exact ⟨⟨ip, rfl⟩, by simpa [Wifi.wifiEventHandler] using h⟩
  | staStart | staDisconnected | other => simp [Wifi.wifiEventHandler] at h

/-- Bits that are set after calls were set before them, or by one of them. -/
lemma sets_of_connected {calls : List Wifi.Call} {bits : UInt32}
    (h : Wifi.Connected (Wifi.bitsAfter calls bits)) :
    Wifi.Connected bits ∨ ∃ m, .xEventGroupSetBits m ∈ calls := by
  induction calls generalizing bits with
  | nil => exact Or.inl h
  | cons call calls ih =>
    rcases ih h with hbits | ⟨m, hm⟩
    · cases call with
      | espLogi | espWifiConnect => exact Or.inl hbits
      | xEventGroupSetBits m => exact Or.inr ⟨m, List.mem_cons_self⟩
      | xEventGroupClearBits m =>
        have hmet : Wifi.activeWait.Met (bits &&& ~~~m) := hbits
        exact Or.inl (Wait.met_of_clear hmet)
    · exact Or.inr ⟨m, List.mem_cons_of_mem call hm⟩

/-- Only the handler for an address sets bits. -/
lemma gotAddress_of_set {v : Wifi.World G} (hv : Wifi.Inv api v) {n : ℕ} {m : UInt32}
    (h : (n, .xEventGroupSetBits m) ∈ v.calls) : GotAddress v := by
  obtain ⟨event, hevent, hset⟩ := hv.ofPost h
  obtain ⟨⟨ip, rfl⟩, rfl⟩ := staGotIp_of_sets hset
  exact ⟨n, ip, hevent, h⟩

lemma gotAddress_of_connected {v : Wifi.World G} (hv : Wifi.Inv api v)
    (h : Wifi.Connected (api.bits v.group)) : GotAddress v := by
  rw [hv.bits] at h
  rcases sets_of_connected h with hzero | ⟨m, hm⟩
  · exact absurd hzero (by unfold Wifi.Connected; decide)
  · obtain ⟨⟨n, call⟩, hcall, rfl⟩ := List.mem_map.mp hm
    exact gotAddress_of_set hv hcall

lemma GotAddress.step {v v' : Wifi.World G} {act : Wifi.Act} (hv : GotAddress v)
    (h : Wifi.Steps api v act v') : GotAddress v' := by
  obtain ⟨n, ip, hip, hset⟩ := hv
  refine ⟨n, ip, ?_, ?_⟩
  · rw [Wifi.posted_step h, List.getElem?_append_left (List.getElem?_eq_some_iff.mp hip).1]
    exact hip
  · cases h with
    | call => exact List.mem_append_left _ hset
    | post | take | finish | wait => exact hset

/-- The task goes on from `xEventGroupWaitBits` at an address only: it does not block where the
bit is set, and is unblocked by what sets it. -/
lemma gotAddress_of_free (hapi : api.Documented) {v v' : Wifi.World G} {act : Wifi.Act}
    (hv : Wifi.Inv api v) (h : Wifi.Steps api v act v')
    (hbefore : act = .wait ∨ api.waiting v.group ≠ none) (hfree : api.waiting v'.group = none) :
    GotAddress v' := by
  have hv' := Wifi.inv_step hapi hv h
  cases h with
  | post | take | finish => exact absurd hfree (hbefore.resolve_left Wifi.Act.noConfusion)
  | @call event call rest hhandler =>
    have hblocked := hbefore.resolve_left Wifi.Act.noConfusion
    cases call with
    | espLogi | espWifiConnect => exact absurd hfree hblocked
    | xEventGroupClearBits m =>
      exact absurd ((hapi.clear_waiting v.group m).symm.trans hfree) hblocked
    | xEventGroupSetBits m =>
      exact gotAddress_of_set hv' (List.mem_append_right v.calls (List.mem_singleton_self _))
  | wait hnone =>
    have hmet : Wifi.activeWait.Met (api.bits v.group) := by
      by_contra hmet
      have hsome := (hapi.wait_waiting v.group Wifi.activeWait _ hnone).mpr ⟨rfl, hmet⟩
      rw [← Wifi.wifiWaitActive, hfree] at hsome
      cases hsome
    obtain ⟨n, ip, hip, hset⟩ := gotAddress_of_connected hv hmet
    exact ⟨n, ip, hip, hset⟩

/-! ### The parts together -/

def Woken (w : World G) : Prop := ∃ t, w.task = some t ∧ t.history ≠ []

/-- The UART and the event group have been asked for. -/
def SetUp (h : History Boot.Call Boot.Return) : Prop :=
  Returned h uartInstall ∧ Returned h .xEventGroupCreate

/-- All of `app_main` before `xTaskCreate` has returned as it should. -/
def Booted (config : Config) (h : History Boot.Call Boot.Return) : Prop :=
  Started config h [.xTaskCreate "coap" 4096 5] ∨ Started config h []

structure Linked (api : Api G) (config : Config) (w : World G) : Prop where
  installed : Returned w.appMain.2 uartInstall → w.endpoint ≠ none
  created : Returned w.appMain.2 .xEventGroupCreate → w.wifi ≠ none
  events : w.handlesEvents = true → SetUp w.appMain.2
  posted : ∀ v, w.wifi = some v → v.posted ≠ [] → SetUp w.appMain.2
  task : w.task ≠ none → Booted config w.appMain.2
  inWait : w.waiting = true → w.inWait = true
  free : w.waiting = false → ∀ v, w.wifi = some v → api.waiting v.group = none
  group : w.waiting = true ∨ Woken w → w.HasGroup
  woken : ∀ v, w.wifi = some v → w.waiting = true ∧ api.waiting v.group = none ∨ Woken w →
    GotAddress v
  served : ∀ e, w.endpoint = some e → e ≠ Endpoint.World.start → Woken w
  gets : w.gets ≠ [] → Woken w

lemma linked_start : Linked api config (World.start config : World G) where
  installed h := by
    obtain ⟨r, hr, -⟩ := h
    cases hr
  created h := by
    obtain ⟨r, hr, -⟩ := h
    cases hr
  events h := by cases h
  posted v h := by cases h
  task h := absurd rfl h
  inWait h := by cases h
  free _ v h := by cases h
  group h := by
    rcases h with h | ⟨t, h, -⟩ <;> cases h
  woken v h := by cases h
  served e h := by cases h
  gets h := absurd rfl h

lemma SetUp.append {h : History Boot.Call Boot.Return} (hs : SetUp h)
    (h' : History Boot.Call Boot.Return) : SetUp (h ++ h') := ⟨hs.1.append h', hs.2.append h'⟩

lemma Booted.returned {h : History Boot.Call Boot.Return} (hb : Booted config h) {c : Boot.Call}
    (hc : c ∈ callOrder config) (hlt : c.place < 13) : Returned h c := by
  rcases hb with hs | hs
  · exact hs.returned hc hlt
  · exact hs.returned_of_notMem hc List.not_mem_nil

lemma Booted.setUp {h : History Boot.Call Boot.Return} (hb : Booted config h) : SetUp h :=
  ⟨hb.returned (by simp [callOrder, uartInstall]) (by simp [Call.place, uartInstall]),
    hb.returned (by simp [callOrder]) (by simp [Call.place])⟩

lemma Booted.next {h : History Boot.Call Boot.Return} (hb : Booted config h) {c : Boot.Call}
    (hr : Reaches config h c) (ret : Boot.Return) :
    c = .xTaskCreate "coap" 4096 5 ∧ Booted config (h ++ [(c, ret)]) := by
  rcases hb with hs | hs
  · obtain ⟨rest, hrest⟩ := hs.head hr
    cases hrest
    exact ⟨rfl, Or.inr (hs.next fun h => by cases h)⟩
  · obtain ⟨rest, hrest⟩ := hs.head hr
    cases hrest

variable {w w' : World G}

lemma task_of_inWait (h : w.inWait = true) : w.task ≠ none := by
  intro hnone
  simp [World.inWait, hnone] at h

lemma Woken.task (h : Woken w) : w.task ≠ none := by
  obtain ⟨t, ht, -⟩ := h
  simp [ht]

/-- The task has a history once it is somewhere else. -/
lemma woken_of_call {rets : List EndpointTask.Return} {t : EndpointTask.State}
    (hrun : EndpointTask.service.run rets = some t) (hcall : t.call ≠ .wifiWaitActive) :
    t.history ≠ [] := by
  rcases List.eq_nil_or_concat rets with rfl | ⟨before, ret, rfl⟩
  · cases hrun
    exact absurd rfl hcall
  · rw [List.concat_eq_append] at hrun
    obtain ⟨s, -, hstep⟩ := Machine.exists_of_run_concat hrun
    rw [(EndpointTask.resumes_of_step hstep).2.2]
    simp

lemma woken_of_inRead {acts : List Act} (hrun : (system api config).run acts = some w)
    (h : w.inRead = true) : Woken w := by
  unfold World.inRead at h
  rcases ht : w.task with _ | t
  · simp [ht] at h
  · obtain ⟨rets, hrets⟩ := part_task.run hrun ht
    have hplace : t.task.place = .coapRead := by simpa [ht] using h
    refine ⟨t, ht, woken_of_call hrets ?_⟩
    unfold EndpointTask.State.call
    rw [EndpointTask.Task.call, hplace]
    exact EndpointTask.Call.noConfusion

lemma appMain_keeps {acts : List Act} (hrun : (system api config).run acts = some w) :
    w.appMain.1.wp (contract config) (fun _ h => Started config h []) w.appMain.2 := by
  obtain ⟨rets, hrets⟩ := part_appMain.run hrun rfl
  exact boot_keeps hrets

lemma reaches_of_current {acts : List Act} (hrun : (system api config).run acts = some w)
    {c : Boot.Call} (hcall : w.appMain.1.current = some c) : Reaches config w.appMain.2 c := by
  have hkeeps := appMain_keeps hrun
  cases hp : w.appMain.1 with
  | done a =>
    rw [hp] at hcall
    cases hcall
  | aborted =>
    rw [hp] at hcall
    cases hcall
  | call c' next =>
    rw [hp] at hcall hkeeps
    cases hcall
    exact hkeeps.1

lemma wifi_inv (hapi : api.Documented) {acts : List Act}
    (hrun : (system api config).run acts = some w) {v : Wifi.World G} (hv : w.wifi = some v) :
    Wifi.Inv api v := by
  obtain ⟨bs, hbs⟩ := part_wifi.run hrun hv
  exact Wifi.inv_run hapi hbs

lemma endpoint_after {w : World G} (c : Boot.Call) (h : w.endpoint ≠ none) :
    (w.after api c).endpoint ≠ none := by
  rcases after_endpoint api w c with ⟨-, hsame⟩ | ⟨-, hnew⟩
  · rwa [hsame]
  · simp [hnew]

lemma wifi_after {w : World G} (c : Boot.Call) (h : w.wifi ≠ none) :
    (w.after api c).wifi ≠ none := by
  rcases after_wifi api w c with hsame | ⟨-, hnew⟩
  · rwa [hsame]
  · simp [hnew]

/-- Events are handled once a call that returns is followed by `esp_event_loop_init`. -/
lemma handlesEvents_returns {c : Boot.Call} {next : Boot.Return → Calls Unit} {ret : Boot.Return}
    (hcall : w.appMain.1 = .call c next)
    (happ : w'.appMain = (next ret, w.appMain.2 ++ [(c, ret)])) (h : w'.handlesEvents = true) :
    w.handlesEvents = true ∨ w'.appMain.1.current = some .espEventLoopInit := by
  have hsplit : w'.handlesEvents =
      (w.handlesEvents || w'.appMain.1.current.toList.any Boot.Call.isEventLoopInit) := by
    simp [World.handlesEvents, happ, hcall, Prog.current, Bool.or_assoc]
  rw [hsplit, Bool.or_eq_true] at h
  refine h.imp_right fun h => ?_
  rcases hcurrent : w'.appMain.1.current with _ | d
  · simp [hcurrent] at h
  · have hd : d.isEventLoopInit = true := by simpa [hcurrent] using h
    rw [eq_of_isEventLoopInit hd]

/-- A call of `app_main` returns. The event group is created once, before there is a task. -/
lemma linked_returns (hapi : api.Documented) {acts : List Act} {ret : Boot.Return}
    (hrun : (system api config).run acts = some w)
    (hrun' : (system api config).run (acts ++ [.returns ret]) = some w') {c : Boot.Call}
    {next : Boot.Return → Calls Unit} (hcall : w.appMain.1 = .call c next)
    (hw : Linked api config w)
    (heq : w' = { w.after api c with appMain := (next ret, w.appMain.2 ++ [(c, ret)]) }) :
    Linked api config w' := by
  have hreach : Reaches config w.appMain.2 c := reaches_of_current hrun (by rw [hcall]; rfl)
  have hcreates : c = .xEventGroupCreate → w.task = none := by
    rintro rfl
    by_contra htask
    cases ((hw.task htask).next hreach ret).1
  have happ : w'.appMain = (next ret, w.appMain.2 ++ [(c, ret)]) := by rw [heq]
  have hendpoint : w'.endpoint = (w.after api c).endpoint := by rw [heq]
  have hwifi : w'.wifi = (w.after api c).wifi := by rw [heq]
  have htask : w'.task = w.task := by rw [heq]; exact after_task w c
  have hwaiting : w'.waiting = w.waiting := by rw [heq]; exact after_waiting w c
  have hgets : w'.gets = w.gets := by rw [heq]; exact after_gets w c
  have hin : w'.inWait = w.inWait := by rw [World.inWait, htask, World.inWait]
  have hwoken : Woken w' ↔ Woken w := by rw [Woken, htask, Woken]
  have hnew : w'.wifi = w.wifi ∨ w.task = none ∧ w'.wifi = some (Wifi.World.start api) := by
    rw [hwifi]
    exact (after_wifi api w c).imp_right fun h => ⟨hcreates h.1, h.2⟩
  have hinstalled : Returned w'.appMain.2 uartInstall → w'.endpoint ≠ none := by
    rw [happ, hendpoint]
    intro hd
    rcases returned_append hd with hd | rfl
    · exact endpoint_after c (hw.installed hd)
    · exact Option.some_ne_none _
  have hcreated : Returned w'.appMain.2 .xEventGroupCreate → w'.wifi ≠ none := by
    rw [happ, hwifi]
    intro hd
    rcases returned_append hd with hd | rfl
    · exact wifi_after c (hw.created hd)
    · exact Option.some_ne_none _
  have hevents : w'.handlesEvents = true → SetUp w'.appMain.2 := by
    intro h
    rcases handlesEvents_returns hcall happ h with hbefore | hcurrent
    · rw [happ]
      exact (hw.events hbefore).append _
    · -- it is called after the UART and the group
      have hreach' := reaches_of_current hrun' hcurrent
      exact ⟨hreach'.returned (by simp [callOrder, uartInstall])
        (by simp [Call.place, uartInstall]), hreach'.returned (by simp [callOrder])
        (by simp [Call.place])⟩
  refine ⟨hinstalled, hcreated, hevents, fun v hv hposted => ?_, fun h => ?_, ?_, fun h v hv => ?_,
    fun h => ?_, fun v hv hor => ?_, fun e he hne => ?_, fun h => ?_⟩
  · rcases hnew with hsame | ⟨-, hstart⟩
    · rw [happ]
      exact (hw.posted v (hsame ▸ hv) hposted).append _
    · rw [hstart] at hv
      cases hv
      exact absurd rfl hposted
  · rw [happ]
    exact ((hw.task (htask ▸ h)).next hreach ret).2
  · rw [hwaiting, hin]
    exact hw.inWait
  · rcases hnew with hsame | ⟨-, hstart⟩
    · exact hw.free (hwaiting ▸ h) v (hsame ▸ hv)
    · rw [hstart] at hv
      cases hv
      exact hapi.create_waiting
  · rw [hwaiting, hwoken] at h
    rw [World.HasGroup, happ]
    exact List.mem_append_left _ (hw.group h)
  · rcases hnew with hsame | ⟨hnone, -⟩
    · rw [hwaiting, hwoken] at hor
      exact hw.woken v (hsame ▸ hv) hor
    · rw [hwaiting, hwoken] at hor
      rcases hor with ⟨hwait, -⟩ | hwoke
      · exact absurd hnone (task_of_inWait (hw.inWait hwait))
      · exact absurd hnone hwoke.task
  · rw [hwoken]
    rw [hendpoint] at he
    rcases after_endpoint api w c with ⟨-, hsame⟩ | ⟨-, hstart⟩
    · exact hw.served e (hsame ▸ he) hne
    · rw [hstart] at he
      cases he
      exact absurd rfl hne
  · rw [hwoken]
    exact hw.gets (hgets ▸ h)

lemma linked_create {acts : List Act} (hrun : (system api config).run acts = some w)
    {name : String} {depth priority : ℕ} {next : Boot.Return → Calls Unit}
    (hcall : w.appMain.1 = .call (.xTaskCreate name depth priority) next) (htask : w.task = none)
    (hw : Linked api config w) :
    Linked api config { w with task := some EndpointTask.service.start } := by
  have hreach : Reaches config w.appMain.2 (.xTaskCreate name depth priority) :=
    reaches_of_current hrun (by rw [hcall]; rfl)
  obtain ⟨rest, hs⟩ := hreach.exists_started (by simp [Call.place])
  have hwaiting : w.waiting ≠ true := fun h => task_of_inWait (hw.inWait h) htask
  have hasleep : ¬ Woken { w with task := some EndpointTask.service.start } := by
    rintro ⟨t, ht, hne⟩
    cases ht
    exact hne rfl
  refine ⟨hw.installed, hw.created, hw.events, hw.posted, fun _ => ?_, fun h => ?_, hw.free,
    fun h => ?_, fun v hv hor => ?_, fun e he hne => ?_, fun h => ?_⟩
  · exact Or.inl (hs.last rfl ▸ hs)
  · exact absurd h hwaiting
  · exact absurd h (not_or_intro hwaiting hasleep)
  · rcases hor with ⟨h, -⟩ | h
    · exact absurd h hwaiting
    · exact absurd h hasleep
  · exact absurd htask (hw.served e he hne).task
  · exact absurd htask (hw.gets h).task

lemma linked_wifi (hapi : api.Documented) {act : Wifi.Act} {v v' : Wifi.World G}
    (hv : Wifi.Inv api v) (hallows : w.allows act = true) (hwifi : w.wifi = some v)
    (hgroup : v.usesGroup act = true → w.HasGroup) (hstep : Wifi.Steps api v act v')
    (hw : Linked api config w) :
    Linked api config { w with wifi := some v', waiting := w.waitingAfter act } := by
  have hposted : v'.posted ≠ [] → SetUp w.appMain.2 := by
    cases hstep with
    | post | take | call | finish => exact fun _ => hw.events hallows
    | wait => exact hw.posted v hwifi
  have hinWait : w.waitingAfter act = true → w.inWait = true := by
    cases act with
    | wait =>
      have h : (w.inWait && !w.waiting) = true := hallows
      exact fun _ => (Bool.and_eq_true_iff.mp h).1
    | post | take | call | finish => exact hw.inWait
  have hfree : w.waitingAfter act = false → api.waiting v'.group = none := by
    intro h
    cases hstep with
    | wait => cases h
    | post | take | finish => exact hw.free h v hwifi
    | @call event call rest hhandler =>
      have hnone := hw.free h v hwifi
      cases call with
      | espLogi | espWifiConnect => exact hnone
      | xEventGroupSetBits m =>
        rcases hsome : api.waiting (api.xEventGroupSetBits v.group m) with _ | wait
        · exact hsome
        · have := ((hapi.set_waiting v.group m wait).mp hsome).1
          rw [hnone] at this
          cases this
      | xEventGroupClearBits m => exact (hapi.clear_waiting v.group m).trans hnone
  have hhas : w.waitingAfter act = true ∨ Woken w → w.HasGroup := by
    cases act with
    | wait => exact fun _ => hgroup rfl
    | post | take | call | finish => exact hw.group
  have hwoken : w.waitingAfter act = true ∧ api.waiting v'.group = none ∨ Woken w →
      GotAddress v' := by
    rintro (⟨hwait, hnone⟩ | hwoke)
    · by_cases hbefore : act = .wait ∨ api.waiting v.group ≠ none
      · exact gotAddress_of_free hapi hv hstep hbefore hnone
      · rw [not_or, not_not] at hbefore
        have hold : w.waiting = true := by
          cases act with
          | wait => exact absurd rfl hbefore.1
          | post | take | call | finish => exact hwait
        exact (hw.woken v hwifi (Or.inl ⟨hold, hbefore.2⟩)).step hstep
    · exact (hw.woken v hwifi (Or.inr hwoke)).step hstep
  refine ⟨hw.installed, fun h => Option.some_ne_none _, hw.events, fun u hu => ?_, hw.task,
    hinWait, fun h u hu => ?_, hhas, fun u hu hor => ?_, hw.served, hw.gets⟩
  · cases hu
    exact hposted
  · cases hu
    exact hfree h
  · cases hu
    exact hwoken hor

lemma linked_task {acts : List Act} (hrun : (system api config).run acts = some w)
    {ret : EndpointTask.Return} {t t' : EndpointTask.State} (hreturn : w.mayReturn api = true)
    (htask : w.task = some t) (hstep : t.step ret = some t') (hw : Linked api config w) :
    Linked api config { w with task := some t', waiting := false } := by
  have hne : t'.history ≠ [] := by
    rw [(EndpointTask.resumes_of_step hstep).2.2]
    simp
  have hcases : w.inWait = false ∨ w.waiting = true ∧
      ∃ v, w.wifi = some v ∧ api.waiting v.group = none := by
    simpa [World.mayReturn, Option.any_eq_true, Option.isNone_iff_eq_none] using hreturn
  have hfree : ∀ v, w.wifi = some v → api.waiting v.group = none := by
    intro v hv
    rcases hcases with hno | ⟨-, u, hu, hnone⟩
    · have hwaiting : w.waiting = false := by
        by_contra h
        rw [hw.inWait (by simpa using h)] at hno
        cases hno
      exact hw.free hwaiting v hv
    · rw [hv] at hu
      cases hu
      exact hnone
  -- it was somewhere else, so that it has been there before, or it waited
  have hwas : Woken w ∨ w.waiting = true := by
    rcases hcases with hno | ⟨hwaiting, -⟩
    · obtain ⟨rets, hrets⟩ := part_task.run hrun htask
      have hcall : t.call ≠ .wifiWaitActive := by simpa [World.inWait, htask] using hno
      exact Or.inl ⟨t, htask, woken_of_call hrets hcall⟩
    · exact Or.inr hwaiting
  have haddress : ∀ v, w.wifi = some v → GotAddress v := fun v hv =>
    hw.woken v hv (hwas.symm.imp_left fun hwaiting => ⟨hwaiting, hfree v hv⟩)
  exact ⟨hw.installed, hw.created, hw.events, hw.posted, fun _ => hw.task (by simp [htask]),
    fun h => absurd h Bool.false_ne_true, fun _ => hfree, fun _ => hw.group hwas.symm,
    fun v hv _ => haddress v hv, fun _ _ _ => ⟨t', rfl, hne⟩, fun _ => ⟨t', rfl, hne⟩⟩

lemma linked_step (hapi : api.Documented) {acts : List Act} {act : Act}
    (hrun : (system api config).run acts = some w) (hw : Linked api config w)
    (h : w.step api act = some w') : Linked api config w' := by
  have hrun' : (system api config).run (acts ++ [act]) = some w' := by
    rw [Machine.run_concat, hrun]
    exact h
  cases (steps_of_step h).2 with
  | returns ret hcall => exact linked_returns hapi hrun hrun' hcall hw rfl
  | create hcall htask => exact linked_create hrun hcall htask hw
  | wifi hallows hwifi hgroup hstep =>
    exact linked_wifi hapi (wifi_inv hapi hrun hwifi) hallows hwifi hgroup
      (Wifi.steps_of_step hstep) hw
  | fault =>
    exact ⟨hw.installed, hw.created, hw.events, hw.posted, hw.task, hw.inWait, hw.free, hw.group,
      hw.woken, hw.served, hw.gets⟩
  | task hreturn htask hstep => exact linked_task hrun hreturn htask hstep hw
  | post post hread hendpoint =>
    have hwoke := woken_of_inRead hrun hread
    exact ⟨fun _ => Option.some_ne_none _, hw.created, hw.events, hw.posted, hw.task, hw.inWait,
      hw.free, hw.group, hw.woken, fun _ _ _ => hwoke, hw.gets⟩
  | get hread =>
    have hwoke := woken_of_inRead hrun hread
    exact ⟨hw.installed, hw.created, hw.events, hw.posted, hw.task, hw.inWait, hw.free, hw.group,
      hw.woken, hw.served, fun _ => hwoke⟩

lemma linked_run (hapi : api.Documented) {acts : List Act}
    (h : (system api config).run acts = some w) : Linked api config w :=
  Machine.invariant_of_run (I := Linked api config) linked_start
    (fun _ _ _ _ hrun hw hstep => linked_step hapi hrun hw hstep) h

/-! ### Everything in its order -/

def bootUp : List Act :=
  [.returns (.err .ok), .returns .void, .returns (.err .ok), .returns (.err .ok),
    .returns (.err .ok), .returns (.err .ok), .returns (.group true), .returns .void,
    .returns (.err .ok), .returns (.err .ok), .returns (.err .ok), .returns (.err .ok),
    .returns (.err .ok), .create]

def startUp : List Act :=
  bootUp ++ [.returns (.created true), .wifi (.post (.staGotIp 1)), .wifi .take,
    .wifi .call, .wifi .call, .wifi .wait, .task .void, .task (.pointer (some 0)),
    .task (.flags 0), .task .void, .task (.pointer (some 0)), .task .void, .task .void,
    .task .void, .task (.selected 1 true)]

def posts (acts : List Act) : List Endpoint.Post :=
  acts.filterMap fun
    | .post post => some post
    | _ => none

lemma Woken.step {act : Act} (hw : Woken w) (h : (system api config).step w act = some w') :
    Woken w' := by
  obtain ⟨t, ht, hne⟩ := hw
  cases (steps_of_step h).2 with
  | returns ret hcall => exact ⟨t, (after_task w _).trans ht, hne⟩
  | create hcall htask =>
    rw [htask] at ht
    cases ht
  | task hreturn htask hstep =>
    refine ⟨_, rfl, ?_⟩
    rw [(EndpointTask.resumes_of_step hstep).2.2]
    simp
  | wifi | fault | post | get => exact ⟨t, ht, hne⟩

lemma posts_append (acts : List Act) (act : Act) : posts (acts ++ [act]) =
    posts acts ++ posts [act] := List.filterMap_append

lemma woken_of_posts {acts : List Act} (h : (system api config).run acts = some w)
    (hposts : posts acts ≠ []) : Woken w := by
  induction acts using List.reverseRecOn generalizing w with
  | nil => exact absurd rfl hposts
  | append_singleton acts act ih =>
    obtain ⟨u, hu, hstep⟩ := Machine.exists_of_run_concat h
    by_cases hbefore : posts acts = []
    · have hlast : posts [act] ≠ [] := by
        rw [posts_append, hbefore] at hposts
        exact hposts
      cases (steps_of_step hstep).2 with
      | post post hread hendpoint => exact (woken_of_inRead hu hread).step hstep
      | returns | create | wifi | fault | task | get => exact absurd rfl hlast
    · exact (ih hu hbefore).step hstep

def handled (driver : Bool) (posts : List Endpoint.Post) : Endpoint.World :=
  if driver then Endpoint.run posts
  else { Endpoint.run posts with uart := Endpoint.World.start.uart }

lemma handle_handled (w : World G) (posts : List Endpoint.Post) (post : Endpoint.Post) :
    w.handle (handled (decide w.HasDriver) posts) post =
      handled (decide w.HasDriver) (posts ++ [post]) := by
  unfold World.handle handled
  by_cases hdriver : w.HasDriver
  · rw [if_pos hdriver, decide_eq_true hdriver, if_pos rfl, if_pos rfl, Endpoint.run_concat]
  · rw [if_neg hdriver, decide_eq_false hdriver, Endpoint.run_concat]
    exact Endpoint.hndRoombaCmdPost_uart (Endpoint.run posts) post _ _

lemma handled_nil (driver : Bool) : handled driver [] = Endpoint.World.start := by
  cases driver <;> rfl

lemma endpoint_eq (hapi : api.Documented) {acts : List Act}
    (h : (system api config).run acts = some w) {e : Endpoint.World}
    (he : w.endpoint = some e) : e = handled (decide w.HasDriver) (posts acts) := by
  induction acts using List.reverseRecOn generalizing w e with
  | nil =>
    cases h
    cases he
  | append_singleton acts act ih =>
    obtain ⟨u, hu, hstep⟩ := Machine.exists_of_run_concat h
    rw [posts_append]
    cases (steps_of_step hstep).2 with
    | @returns c next ret hcall =>
      have hnil : posts [Act.returns ret] = [] := rfl
      rw [hnil, List.append_nil]
      rcases after_endpoint api u c with ⟨hc, hsame⟩ | ⟨⟨uart, rx, tx, queue, rfl⟩, hnew⟩
      · have hdriver : (uartInstall, .err .ok) ∈ u.appMain.2 ++ [(c, ret)] ↔ u.HasDriver := by
          simp [World.HasDriver, hc.symm]
        rw [ih hu (hsame.symm.trans he)]
        exact congrArg (handled · (posts acts)) (decide_eq_decide.mpr hdriver.symm)
      · -- the driver is installed once, before there is a task
        have hnone : posts acts = [] := by
          by_contra hposts
          have hreach := reaches_of_current hu (by rw [hcall]; rfl)
          cases (((linked_run hapi hu).task (woken_of_posts hu hposts).task).next hreach ret).1
        rw [hnone, handled_nil]
        exact (Option.some.inj (hnew.symm.trans he)).symm
    | @post e post hread hendpoint =>
      have hlast : posts [Act.post post] = [post] := rfl
      rw [hlast, ← Option.some.inj he, ih hu hendpoint]
      exact handle_handled u (posts acts) post
    | create | wifi | fault | task | get =>
      show e = handled (decide u.HasDriver) (posts acts ++ [])
      rw [List.append_nil]
      exact ih hu he

/-- A request for the resource is answered with an empty message, whose id is zero. -/
lemma gets_empty {acts : List Act} (h : (system api config).run acts = some w) :
    ∀ data ∈ w.gets, data = [] := by
  refine Machine.invariant (I := fun w : World G => ∀ data ∈ w.gets, data = []) (by
    intro data hdata
    cases hdata) ?_ h
  intro u act w hu hstep
  cases (steps_of_step hstep).2 with
  | @returns c next ret hcall =>
    intro data hdata
    rw [after_gets] at hdata
    exact hu data hdata
  | get =>
    intro data hdata
    rcases List.mem_append.mp hdata with hdata | hdata
    · exact hu data hdata
    · rw [List.mem_singleton.mp hdata]
      rfl
  | create | wifi | fault | task | post => exact hu

/-- What the posts have made of the endpoint: with the driver of the UART the line is well framed
and carries them out, without it nothing is written. The calls, the responses and the end of the
program are the same either way. -/
structure Handled (driver : Bool) (posts : List Endpoint.Post) (e : Endpoint.World) : Prop where
  framed : driver = true → Endpoint.Framed e
  carriesOut : driver = true → Orders.CarriesOut Endpoint.World.start posts e
  silent : driver = false → e.uart.stream = []
  others : Orders.CarriesOut Endpoint.World.start posts
    { e with uart := (Endpoint.run posts).uart }

lemma handled_spec (driver : Bool) (posts : List Endpoint.Post) :
    Handled driver posts (handled driver posts) := by
  have hrun := Orders.foldl_carriesOut (w := Endpoint.World.start) rfl posts
  cases driver with
  | true =>
    exact ⟨fun _ => Endpoint.framed_run posts, fun _ => hrun, fun h => (by cases h), hrun⟩
  | false => exact ⟨fun h => (by cases h), fun h => (by cases h), fun _ => rfl, hrun⟩

/-- **Each part keeps what it keeps by itself**, in every run of the whole program: no wake-up is
lost, no context is leaked or misused, the line is well framed and holds what the posts asked for
if the UART has its driver, and a request for the resource comes back with nothing. -/
theorem parts_safe (hapi : api.Documented) (config : Config) (acts : List Act) (w : World G)
    (h : (system api config).run acts = some w) :
    (∀ v, w.wifi = some v → Wifi.NoLostWakeUp api v) ∧
      (∀ t, w.task = some t → EndpointTask.KeepsContexts t) ∧
      (∀ e, w.endpoint = some e → Handled (decide w.HasDriver) (posts acts) e) ∧
      ∀ data ∈ w.gets, data = [] := by
  refine ⟨fun v hv => (wifi_inv hapi h hv).noLostWakeUp, fun t ht => ?_, fun e he => ?_,
    gets_empty h⟩
  · obtain ⟨rets, hrets⟩ := part_task.run h ht
    exact (EndpointTask.inv_run hrets).keepsContexts
  · rw [endpoint_eq hapi h he]
    exact handled_spec _ _

/-- The program serves a request for full mode. -/
theorem parts_safe_full : ∃ w e, (system eventGroups ⟨"myssid", "mypassword"⟩).run
    (startUp ++ [.post ⟨some [0x12, 0x04, 0x1A, 0x02, 0x08, 0x01], [0], true⟩]) = some w ∧
      w.endpoint = some e ∧ e.uart.stream = [132] := by
  have hsafe := (parts_safe documented_eventGroups ⟨"myssid", "mypassword"⟩
    (startUp ++ [.post ⟨some [0x12, 0x04, 0x1A, 0x02, 0x08, 0x01], [0], true⟩])
    _ rfl).2.2.1 _ rfl
  exact ⟨_, _, rfl, rfl, (hsafe.carriesOut (by decide)).stream.trans (by decide)⟩

end RoombaBrain.Serving
