import Mathlib.Data.Fintype.EquivFin
import RoombaBrain.Serving

/-!
The program comes through.

Where the last that was posted about the link is an address, the event loop and the task can take
the program to a state in which a post is handled. Nothing else has to happen for it.
-/

namespace RoombaBrain.Progress

open RoombaBrain.EventGroups RoombaBrain.Runs RoombaBrain.Programs RoombaBrain.Boot
  RoombaBrain.System RoombaBrain.Serving

variable {G : Type} {api : Api G} {config : Config} {w : World G}

def Act.own : Act → Prop
  | .wifi act => act.ofLoop ∨ act = .wait
  | .task _ => True
  | .returns _ | .create | .post _ | .get => False

/-! ### The event loop -/

lemma run_loop (hended : w.ended = false) (hgroup : w.HasGroup) (hevents : w.handlesEvents = true)
    {v v' : Wifi.World G} {acts : List Wifi.Act} (hv : w.wifi = some v)
    (hloop : ∀ act ∈ acts, act.ofLoop) (hrun : (Wifi.system api).runFrom v acts = some v') :
    (system api config).runFrom w (acts.map .wifi) = some { w with wifi := some v' } := by
  induction acts generalizing w v with
  | nil =>
    cases hrun
    rw [List.map_nil, Machine.runFrom_nil, ← hv]
  | cons act acts ih =>
    rw [Machine.runFrom_cons] at hrun
    obtain ⟨u, hu, hrest⟩ := Option.bind_eq_some_iff.mp hrun
    have hact := hloop act List.mem_cons_self
    have hallows : w.allows act = true := by
      cases act with
      | take | call | finish => exact hevents
      | post | wait => cases hact
    have hwaiting : w.waitingAfter act = w.waiting := by
      cases act with
      | take | call | finish => rfl
      | post | wait => cases hact
    have hstep : (system api config).step w (.wifi act) = some { w with wifi := some u } := by
      have hu : v.step api act = some u := hu
      show w.step api (.wifi act) = _
      simp [World.step, hended, hallows, hv, hu, hwaiting, hgroup]
    rw [List.map_cons, Machine.runFrom_cons, hstep, Option.bind_some]
    exact ih (w := { w with wifi := some u }) hended hgroup hevents rfl
      (fun a ha => hloop a (List.mem_cons_of_mem act ha)) hrest

/-! ### The task -/

inductive Goes : EndpointTask.State → List EndpointTask.Return → EndpointTask.State → Prop
  | nil {s} : Goes s [] s
  | cons {s ret rets t u} (hcall : s.call ≠ .wifiWaitActive)
      (hmay : EndpointTask.May s.history s.call ret) (hresume : s.task.resume ret = some t)
      (h : Goes ⟨t, s.history ++ [(s.call, ret)]⟩ rets u) : Goes s (ret :: rets) u

lemma step_of_resume {s : EndpointTask.State} {ret : EndpointTask.Return} {t : EndpointTask.Task}
    (hmay : EndpointTask.May s.history s.call ret) (hresume : s.task.resume ret = some t) :
    s.step ret = some ⟨t, s.history ++ [(s.call, ret)]⟩ := by
  unfold EndpointTask.State.step
  rw [if_pos hmay, hresume]
  rfl

lemma step_task (hended : w.ended = false) (hreturn : w.mayReturn api = true)
    {s t : EndpointTask.State} {ret : EndpointTask.Return} (hs : w.task = some s)
    (hstep : s.step ret = some t) :
    (system api config).step w (.task ret) =
      some { w with task := some t, waiting := false } := by
  show w.step api (.task ret) = _
  simp [World.step, hended, hreturn, hs, hstep]

lemma step_post (hended : w.ended = false) (hread : w.inRead = true) {e : Endpoint.World}
    (he : w.endpoint = some e) (post : Endpoint.Post) :
    (system api config).step w (.post post) =
      some { w with endpoint := some (w.handle e post) } := by
  show w.step api (.post post) = _
  simp [World.step, hended, hread, he]

lemma exists_fresh (l : List ℕ) : ∃ n, n ∉ l := by
  obtain ⟨n, hn⟩ := Infinite.exists_notMem_finset l.toFinset
  exact ⟨n, by simpa using hn⟩

/-- With a context, a resource, and something to read, the task comes to `coap_read`. -/
lemma goes_to_read (flags : Int32) (ctx resource : Option ℕ) (h : EndpointTask.History) :
    ∃ rets s, Goes ⟨⟨.coapNewContext, ctx, flags, resource⟩, h⟩ rets s ∧
      s.task.place = .coapRead := by
  obtain ⟨c, hc⟩ := exists_fresh (EndpointTask.created h)
  obtain ⟨r, hr⟩ := exists_fresh (EndpointTask.initialised (h ++
    [(.coapNewContext, .pointer (some c))] ++ [(.fcntlGetfl (some c), .flags flags)] ++
    [(.fcntlSetfl (some c) flags, .void)]))
  exact ⟨[.pointer (some c), .flags flags, .void, .pointer (some r), .void, .void, .void,
    .selected 1 true], _,
    .cons EndpointTask.Call.noConfusion hc rfl <|
    .cons EndpointTask.Call.noConfusion trivial rfl <|
    .cons EndpointTask.Call.noConfusion trivial rfl <|
    .cons EndpointTask.Call.noConfusion hr rfl <|
    .cons EndpointTask.Call.noConfusion trivial rfl <|
    .cons EndpointTask.Call.noConfusion trivial rfl <|
    .cons EndpointTask.Call.noConfusion trivial rfl <|
    .cons EndpointTask.Call.noConfusion trivial rfl .nil, rfl⟩

lemma run_task (hended : w.ended = false) (hwaiting : w.waiting = false)
    {s t : EndpointTask.State} {rets : List EndpointTask.Return} (hs : w.task = some s)
    (hgoes : Goes s rets t) :
    (system api config).runFrom w (rets.map .task) = some { w with task := some t } := by
  induction hgoes generalizing w with
  | nil => rw [List.map_nil, Machine.runFrom_nil, ← hs]
  | @cons s ret rets t u hcall hmay hresume h ih =>
    have hreturn : w.mayReturn api = true := by simp [World.mayReturn, World.inWait, hs, hcall]
    have hstep : (system api config).step w (.task ret) =
        some { w with task := some ⟨t, s.history ++ [(s.call, ret)]⟩ } := by
      refine (step_task hended hreturn hs (step_of_resume hmay hresume)).trans ?_
      rw [hwaiting]
    rw [List.map_cons, Machine.runFrom_cons, hstep, Option.bind_some]
    exact ih (w := { w with task := some ⟨t, s.history ++ [(s.call, ret)]⟩ }) hended hwaiting rfl

/-! ### The whole program -/

lemma handlesEvents_of_task (hw : Linked api config w) (htask : w.task ≠ none) :
    w.handlesEvents = true := by
  obtain ⟨r, hr, -⟩ := (hw.task htask).returned (c := .espEventLoopInit) (by simp [callOrder])
    (by simp [Call.place])
  unfold World.handlesEvents
  rw [List.any_append, Bool.or_eq_true]
  exact Or.inl (List.any_eq_true.mpr ⟨_, List.mem_map_of_mem hr, rfl⟩)

/-- The task gets into `xEventGroupWaitBits`, if it is not in it. -/
lemma enters_wait (hended : w.ended = false) (hgroup : w.HasGroup) (hin : w.inWait = true)
    (hw : Linked api config w) {v : Wifi.World G} (hv : w.wifi = some v) :
    ∃ acts v', (∀ act ∈ acts, Act.own act) ∧
      (system api config).runFrom w acts = some { w with wifi := some v', waiting := true } ∧
      v'.posted = v.posted := by
  by_cases hwaiting : w.waiting = true
  · refine ⟨[], v, by simp, ?_, rfl⟩
    rw [Machine.runFrom_nil, ← hv, ← hwaiting]
  · have hwaiting : w.waiting = false := by simpa using hwaiting
    have hstep : v.step api .wait = some { v with group := Wifi.wifiWaitActive api v.group } := by
      simp [Wifi.World.step, hw.free hwaiting v hv]
    refine ⟨[.wifi .wait], { v with group := Wifi.wifiWaitActive api v.group },
      by simp [Act.own], ?_, rfl⟩
    show (w.step api (.wifi .wait)).bind some = _
    simp only [World.step, hended, World.allows, hin, hwaiting, hv, Option.bind_some, hgroup,
      not_true, and_false, if_false, hstep, World.waitingAfter]
    rfl

/-- The event loop and the task by themselves come to `coap_read`, from a state in which the task
is in `wifi_wait_active` and an address is the last that was posted about the link. -/
lemma comes_to_read (hapi : api.Documented) {acts : List Act}
    (h : (system api config).run acts = some w) (hended : w.ended = false)
    (hgroup : w.HasGroup) (hin : w.inWait = true) {v : Wifi.World G} (hv : w.wifi = some v)
    (hup : (v.posted.filterMap Wifi.linkUp).getLast? = some true) :
    ∃ acts' w', (∀ act ∈ acts', Act.own act) ∧ (system api config).run (acts ++ acts') = some w' ∧
      w'.ended = false ∧ w'.inRead = true ∧ w'.appMain = w.appMain ∧ w'.endpoint = w.endpoint ∧
      w.endpoint ≠ none := by
  have hw := linked_run hapi h
  have htask := task_of_inWait hin
  have hevents := handlesEvents_of_task hw htask
  obtain ⟨s, hs⟩ := Option.ne_none_iff_exists'.mp htask
  -- the task waits
  obtain ⟨acts₁, v₁, hown₁, hrun₁, hposted⟩ := enters_wait hended hgroup hin hw hv
  have h₁ : (system api config).run (acts ++ acts₁) =
      some { w with wifi := some v₁, waiting := true } := by
    rw [Machine.run_append, h]
    exact hrun₁
  -- the event loop handles what was posted
  obtain ⟨bs, hbs⟩ := part_wifi.run h₁ rfl
  obtain ⟨acts₂, v₂, hloop, hrun₂, -, hfree⟩ := Wifi.wakes_up hapi hbs (hposted ▸ hup)
  rw [Machine.run_append, hbs] at hrun₂
  have h₂ : (system api config).run (acts ++ acts₁ ++ acts₂.map .wifi) =
      some { w with wifi := some v₂, waiting := true } := by
    rw [Machine.run_append, h₁]
    exact run_loop (w := { w with wifi := some v₁, waiting := true }) hended hgroup hevents rfl
      hloop hrun₂
  -- the task goes on
  obtain ⟨⟨place, ctx, flags, resource⟩, history⟩ := s
  have hplace : place = .wifiWaitActive := by
    have hcall : EndpointTask.Task.call ⟨place, ctx, flags, resource⟩ = .wifiWaitActive := by
      rw [World.inWait, hs] at hin
      exact of_decide_eq_true hin
    cases place <;> first | rfl | cases hcall
  subst hplace
  obtain ⟨w₃, hw₃⟩ : ∃ w₃ : World G, w₃ = { w with
    wifi := some v₂
    task := some ⟨⟨.coapNewContext, ctx, flags, resource⟩, history ++ [(.wifiWaitActive, .void)]⟩
    waiting := false } := ⟨_, rfl⟩
  have h₃ : (system api config).run (acts ++ acts₁ ++ acts₂.map .wifi ++ [.task .void]) =
      some w₃ := by
    have hstep : EndpointTask.State.step ⟨⟨.wifiWaitActive, ctx, flags, resource⟩, history⟩ .void =
        some ⟨⟨.coapNewContext, ctx, flags, resource⟩, history ++ [(.wifiWaitActive, .void)]⟩ :=
      step_of_resume trivial rfl
    have hreturn : World.mayReturn api { w with wifi := some v₂, waiting := true } = true := by
      simp [World.mayReturn, hfree]
    rw [Machine.run_concat, h₂, hw₃]
    exact step_task (w := { w with wifi := some v₂, waiting := true }) hended hreturn hs hstep
  obtain ⟨rets, t, hgoes, hread⟩ := goes_to_read flags ctx resource
    (history ++ [(.wifiWaitActive, .void)])
  have hended₃ : w₃.ended = false := by rw [hw₃]; exact hended
  have h₄ : (system api config).run
      (acts ++ acts₁ ++ acts₂.map .wifi ++ [.task .void] ++ rets.map .task) =
        some { w₃ with task := some t } := by
    rw [Machine.run_append, h₃]
    exact run_task hended₃ (by rw [hw₃]) (by rw [hw₃]) hgoes
  refine ⟨acts₁ ++ acts₂.map .wifi ++ [.task .void] ++ rets.map .task,
    { w₃ with task := some t }, ?_, ?_, hended₃, decide_eq_true hread, by rw [hw₃], by rw [hw₃],
    hw.installed (hw.task htask).setUp.1⟩
  · intro act hact
    simp only [List.mem_append, List.mem_map, List.mem_singleton] at hact
    rcases hact with ((hact | ⟨a, ha, rfl⟩) | rfl) | ⟨ret, -, rfl⟩
    · exact hown₁ act hact
    · exact Or.inl (hloop a ha)
    · trivial
    · trivial
  · simpa only [List.append_assoc] using h₄

lemma handle_congr {w w' : World G} (h : w'.appMain = w.appMain) : w'.handle = w.handle := by
  cases w
  cases w'
  cases h
  rfl

/-- **The program comes through**: from every state that a run comes to, in which there is a group,
the task is in `wifi_wait_active`, and an address is the last that was posted about the link, the
event loop and the task by themselves can come to a state in which a post is handled. -/
theorem comes_through (hapi : api.Documented) (config : Config) (acts : List Act) (w : World G)
    (h : (system api config).run acts = some w) (hended : w.ended = false)
    (hgroup : w.HasGroup) (hin : w.inWait = true) (v : Wifi.World G) (hv : w.wifi = some v)
    (hup : (v.posted.filterMap Wifi.linkUp).getLast? = some true) (post : Endpoint.Post) :
    ∃ acts' w', (∀ act ∈ acts', Act.own act) ∧
      (system api config).run (acts ++ acts' ++ [.post post]) = some w' ∧
      ∃ e, w.endpoint = some e ∧ w'.endpoint = some (w.handle e post) := by
  obtain ⟨acts', w', hown, hrun, hended', hread, happ, hendpoint, hne⟩ :=
    comes_to_read hapi h hended hgroup hin hv hup
  obtain ⟨e, he⟩ := Option.ne_none_iff_exists'.mp hne
  refine ⟨acts', { w' with endpoint := some (w.handle e post) }, hown, ?_, e, he, rfl⟩
  rw [Machine.run_concat, hrun, ← handle_congr happ]
  exact step_post hended' hread (hendpoint.trans he) post

/-- An address is posted as soon as `app_main` is through. -/
theorem comes_through_address :
    ∃ acts' w', (∀ act ∈ acts', Act.own act) ∧
      (system eventGroups ⟨"myssid", "mypassword"⟩).run
        (bootUp ++ [.wifi (.post (.staGotIp 1))] ++ acts' ++
          [.post ⟨some [0x12, 0x04, 0x1A, 0x02, 0x08, 0x01], [0], true⟩]) = some w' ∧
      w'.endpoint.map (fun e => e.uart.stream) = some [132] := by
  obtain ⟨acts', w', hown, hrun, e, he, he'⟩ := comes_through documented_eventGroups
    ⟨"myssid", "mypassword"⟩ (bootUp ++ [.wifi (.post (.staGotIp 1))]) _ rfl rfl (by decide) rfl _
    rfl rfl ⟨some [0x12, 0x04, 0x1A, 0x02, 0x08, 0x01], [0], true⟩
  refine ⟨acts', w', hown, hrun, ?_⟩
  rw [he', ← Option.some.inj he]
  decide

end RoombaBrain.Progress
