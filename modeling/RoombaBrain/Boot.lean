import RoombaBrain.Programs
import RoombaBrain.Roomba

/-!
The start of the program (`app_main` of `main.c`, `roomba_init` of `roomba.c` and `wifi_init_sta`
of `wifi.c`).

Some calls are checked, and abort the program when they do not return `ESP_OK`; the results of the
others are not looked at. The flash is erased when it has no free pages, once.
-/

namespace RoombaBrain.Boot

open RoombaBrain.Runs RoombaBrain.Programs RoombaBrain.Programs.Prog RoombaBrain.Roomba

/-- `esp_err_t` -/
inductive EspErr
  | ok
  | nvsNoFreePages
  | other (code : Int32)
  deriving DecidableEq

/-- `CONFIG_WIFI_SSID` and `CONFIG_WIFI_PASSWORD` -/
structure Config where
  ssid : String
  password : String

inductive Call
  | nvsFlashInit
  | nvsFlashErase
  | espLogi (text : String)
  | uartParamConfig (uart : ℕ) (config : UartConfig)
  | gpioSetDirectionOutput (pin : ℕ)
  /-- the pins for TX, RX, RTS and CTS -/
  | uartSetPin (uart : ℕ) (tx rx : ℕ) (rts cts : Option ℕ)
  | uartDriverInstall (uart rxBufferSize txBufferSize queueSize : ℕ)
  | xEventGroupCreate
  | tcpipAdapterInit
  /-- with `wifi_event_handler` -/
  | espEventLoopInit
  | espWifiInit
  | espWifiSetModeSta
  | espWifiSetConfigSta (ssid password : String)
  | espWifiStart
  /-- of `endpoint_task` -/
  | xTaskCreate (name : String) (stackDepth priority : ℕ)
  deriving DecidableEq

inductive Return
  | err (code : EspErr)
  /-- a group, or `NULL` -/
  | group (made : Bool)
  /-- `pdPASS` when the task was created -/
  | created (made : Bool)
  | void
  deriving DecidableEq

def Call.returns : Call → Return → Bool
  | .espLogi _, .void | .tcpipAdapterInit, .void => true
  | .xEventGroupCreate, .group _ => true
  | .xTaskCreate _ _ _, .created _ => true
  | .nvsFlashInit, .err _ | .nvsFlashErase, .err _ | .uartParamConfig _ _, .err _
  | .gpioSetDirectionOutput _, .err _ | .uartSetPin _ _ _ _ _, .err _
  | .uartDriverInstall _ _ _ _, .err _ | .espEventLoopInit, .err _ | .espWifiInit, .err _
  | .espWifiSetModeSta, .err _ | .espWifiSetConfigSta _ _, .err _ | .espWifiStart, .err _ => true
  | _, _ => false

abbrev Calls := Prog Call Return

/-- `ESP_ERROR_CHECK` -/
def espErrorCheck (p : Calls Return) : Calls Unit := do
  if (← p) = .err .ok then pure () else .aborted

/-- `ROOMBA_UART` -/
def roombaUart : ℕ := 1

/-- `BUF_SIZE` -/
def bufSize : ℕ := 1024

/-- `roomba_init` -/
def roombaInit : Calls Unit := do
  let _ ← make (.uartParamConfig roombaUart Roomba.roombaInit.config)
  let _ ← make (.gpioSetDirectionOutput 26)
  let _ ← make (.uartSetPin roombaUart 26 27 none none)
  let _ ← make (.uartDriverInstall roombaUart (bufSize * 2) 0 10)

/-- `wifi_init_sta` -/
def wifiInitSta (config : Config) : Calls Unit := do
  let _ ← make .xEventGroupCreate
  let _ ← make .tcpipAdapterInit
  espErrorCheck (make .espEventLoopInit)
  espErrorCheck (make .espWifiInit)
  espErrorCheck (make .espWifiSetModeSta)
  espErrorCheck (make (.espWifiSetConfigSta config.ssid config.password))
  espErrorCheck (make .espWifiStart)

/-- `nvs_flash_init`, and again after `nvs_flash_erase` when there are no free pages. -/
def flashInit : Calls Return := do
  let ret ← make .nvsFlashInit
  if ret = .err .nvsNoFreePages then do
    espErrorCheck (make .nvsFlashErase)
    make .nvsFlashInit
  else pure ret

/-- `app_main` -/
def appMain (config : Config) : Calls Unit := do
  espErrorCheck flashInit
  let _ ← make (.espLogi "booting esp")
  roombaInit
  wifiInitSta config
  let _ ← make (.xTaskCreate "coap" 4096 5)

def boot (config : Config) : Machine (Calls Unit × History Call Return) Return :=
  (appMain config).machine Call.returns

def Call.isEventLoopInit : Call → Bool
  | .espEventLoopInit => true
  | _ => false

lemma eq_of_isEventLoopInit {c : Call} (h : c.isEventLoopInit = true) : c = .espEventLoopInit := by
  cases c with
  | espEventLoopInit => rfl
  | _ => cases h

/-! ### The order of the calls -/

def Call.checked : Call → Bool
  | .nvsFlashInit | .nvsFlashErase | .espEventLoopInit | .espWifiInit | .espWifiSetModeSta
  | .espWifiSetConfigSta _ _ | .espWifiStart => true
  | .espLogi _ | .uartParamConfig _ _ | .gpioSetDirectionOutput _ | .uartSetPin _ _ _ _ _
  | .uartDriverInstall _ _ _ _ | .xEventGroupCreate | .tcpipAdapterInit
  | .xTaskCreate _ _ _ => false

def callOrder (config : Config) : List Call :=
  [.espLogi "booting esp", .uartParamConfig roombaUart Roomba.roombaInit.config,
    .gpioSetDirectionOutput 26, .uartSetPin roombaUart 26 27 none none,
    .uartDriverInstall roombaUart 2048 0 10, .xEventGroupCreate, .tcpipAdapterInit,
    .espEventLoopInit, .espWifiInit, .espWifiSetModeSta,
    .espWifiSetConfigSta config.ssid config.password, .espWifiStart, .xTaskCreate "coap" 4096 5]

inductive FlashReady : History Call Return → Prop
  | atOnce : FlashReady [(.nvsFlashInit, .err .ok)]
  | erased : FlashReady [(.nvsFlashInit, .err .nvsNoFreePages), (.nvsFlashErase, .err .ok),
      (.nvsFlashInit, .err .ok)]

/-- The flash is ready, and of the calls after it these are still to be made. Those that are
checked have returned `ESP_OK`. -/
def Started (config : Config) (h : History Call Return) (rest : List Call) : Prop :=
  ∃ flash made, h = flash ++ made ∧ FlashReady flash ∧
    made.map Prod.fst ++ rest = callOrder config ∧
    ∀ c r, (c, r) ∈ made → c.checked = true → r = .err .ok

inductive Reaches (config : Config) : History Call Return → Call → Prop
  | init : Reaches config [] .nvsFlashInit
  | erase : Reaches config [(.nvsFlashInit, .err .nvsNoFreePages)] .nvsFlashErase
  | initAgain : Reaches config [(.nvsFlashInit, .err .nvsNoFreePages), (.nvsFlashErase, .err .ok)]
      .nvsFlashInit
  | started {h c rest} (hs : Started config h (c :: rest)) : Reaches config h c

/-- The calls end with one whose check fails. The flash without free pages is not a failure at
first. -/
def Failed (config : Config) (h : History Call Return) : Prop :=
  ∃ before c r, h = before ++ [(c, r)] ∧ Reaches config before c ∧ c.checked = true ∧ r ≠ .err .ok ∧
    (before = [] → r ≠ .err .nvsNoFreePages)

def contract (config : Config) : Contract Call Return := ⟨Reaches config, Failed config⟩

variable {config : Config}

lemma seq_spec {C R α β : Type} {S : Contract C R} {p : Prog C R α} {f : α → Prog C R β}
    {P : History C R → Prop} {Q : β → History C R → Prop} {h : History C R}
    (hp : p.wp S (fun _ => P) h) (hf : ∀ a h, P h → (f a).wp S Q h) : (p >>= f).wp S Q h :=
  (wp_bind p f Q h).mpr (hp.mono fun a h => hf a h)

lemma espErrorCheck_spec {p : Calls Return} {Q : Unit → History Call Return → Prop}
    {h : History Call Return}
    (hp : p.wp (contract config)
      (fun r h => (r = .err .ok → Q () h) ∧ (r ≠ .err .ok → Failed config h)) h) :
    (espErrorCheck p).wp (contract config) Q h := by
  refine (wp_bind p _ Q h).mpr (hp.mono fun r h hr => ?_)
  by_cases hok : r = .err .ok
  · rw [if_pos hok]
    exact hr.1 hok
  · rw [if_neg hok]
    exact hr.2 hok

/-! ### The calls in order -/

lemma Started.next {h : History Call Return} {c : Call} {rest : List Call} {r : Return}
    (hs : Started config h (c :: rest)) (hr : c.checked = true → r = .err .ok) :
    Started config (h ++ [(c, r)]) rest := by
  obtain ⟨flash, made, rfl, hflash, horder, hok⟩ := hs
  refine ⟨flash, made ++ [(c, r)], by simp, hflash, by simpa using horder, ?_⟩
  intro c' r' hmem hc
  rcases List.mem_append.mp hmem with hmem | hmem
  · exact hok c' r' hmem hc
  · cases List.mem_singleton.mp hmem
    exact hr hc

lemma make_spec {h : History Call Return} {c : Call} {rest : List Call}
    (hs : Started config h (c :: rest)) (hc : c.checked = false) :
    (make c : Calls Return).wp (contract config) (fun _ h => Started config h rest) h :=
  ⟨.started hs, fun _ => hs.next fun hchecked => absurd (hchecked.symm.trans hc) (by decide)⟩

lemma Started.ne_nil {h : History Call Return} {rest : List Call} (hs : Started config h rest) :
    h ≠ [] := by
  obtain ⟨flash, made, rfl, hflash, -, -⟩ := hs
  cases hflash <;> simp

lemma check_spec {h : History Call Return} {c : Call} {rest : List Call}
    (hs : Started config h (c :: rest)) (hc : c.checked = true) :
    (espErrorCheck (make c)).wp (contract config) (fun _ h => Started config h rest) h := by
  refine espErrorCheck_spec (p := make c) ⟨.started hs, fun r => ⟨fun hok => ?_, fun hne => ?_⟩⟩
  · exact hs.next fun _ => hok
  · exact ⟨h, c, r, rfl, .started hs, hc, hne, fun hnil => absurd hnil hs.ne_nil⟩

/-- The flash is ready, or the last call failed. -/
lemma flashInit_spec : flashInit.wp (contract config)
    (fun r h => (r = .err .ok → Started config h (callOrder config)) ∧
      (r ≠ .err .ok → Failed config h)) [] := by
  have hready : ∀ flash, FlashReady flash → Started config flash (callOrder config) :=
    fun flash hflash => ⟨flash, [], by simp, hflash, rfl, by simp⟩
  refine (wp_bind _ _ _ _).mpr ⟨.init, fun r => ?_⟩
  change (ite _ _ _ : Calls Return).wp _ _ _
  by_cases hfull : r = .err .nvsNoFreePages
  · -- no free pages: the flash is erased, and a second try decides
    rw [if_pos hfull, hfull]
    refine seq_spec
      (P := fun h => h = [(.nvsFlashInit, .err .nvsNoFreePages), (.nvsFlashErase, .err .ok)])
      (espErrorCheck_spec (p := make .nvsFlashErase) ⟨.erase, fun r => ⟨?_, ?_⟩⟩) ?_
    · rintro rfl
      rfl
    · exact fun hne => ⟨_, _, r, rfl, .erase, rfl, hne, fun hnil => by cases hnil⟩
    · rintro _ h rfl
      refine ⟨.initAgain, fun r => ⟨?_, fun hne => ?_⟩⟩
      · rintro rfl
        exact hready _ .erased
      · exact ⟨_, _, r, rfl, .initAgain, rfl, hne, fun hnil => by cases hnil⟩
  · rw [if_neg hfull]
    refine ⟨?_, fun hne => ⟨[], _, r, rfl, .init, rfl, hne, fun _ => hfull⟩⟩
    rintro rfl
    exact hready _ .atOnce

lemma roombaInit_spec {h : History Call Return} {rest : List Call}
    (hs : Started config h (.uartParamConfig roombaUart Roomba.roombaInit.config ::
      .gpioSetDirectionOutput 26 :: .uartSetPin roombaUart 26 27 none none ::
      .uartDriverInstall roombaUart 2048 0 10 :: rest)) :
    roombaInit.wp (contract config) (fun _ h => Started config h rest) h := by
  refine seq_spec (make_spec hs rfl) fun _ h hs => ?_
  refine seq_spec (make_spec hs rfl) fun _ h hs => ?_
  refine seq_spec (make_spec hs rfl) fun _ h hs => ?_
  exact seq_spec (make_spec hs rfl) fun _ h hs => hs

lemma wifiInitSta_spec {h : History Call Return} {rest : List Call}
    (hs : Started config h (.xEventGroupCreate :: .tcpipAdapterInit :: .espEventLoopInit ::
      .espWifiInit :: .espWifiSetModeSta :: .espWifiSetConfigSta config.ssid config.password ::
      .espWifiStart :: rest)) :
    (wifiInitSta config).wp (contract config) (fun _ h => Started config h rest) h := by
  refine seq_spec (make_spec hs rfl) fun _ h hs => ?_
  refine seq_spec (make_spec hs rfl) fun _ h hs => ?_
  refine seq_spec (check_spec hs rfl) fun _ h hs => ?_
  refine seq_spec (check_spec hs rfl) fun _ h hs => ?_
  refine seq_spec (check_spec hs rfl) fun _ h hs => ?_
  refine seq_spec (check_spec hs rfl) fun _ h hs => ?_
  exact check_spec hs rfl

lemma appMain_spec (config : Config) : (appMain config).wp (contract config)
    (fun _ h => Started config h []) [] := by
  refine seq_spec (espErrorCheck_spec flashInit_spec) fun _ h hs => ?_
  refine seq_spec (make_spec hs rfl) fun _ h hs => ?_
  refine seq_spec (roombaInit_spec hs) fun _ h hs => ?_
  refine seq_spec (wifiInitSta_spec hs) fun _ h hs => ?_
  exact seq_spec (make_spec hs rfl) fun _ h hs => hs

lemma boot_keeps {rets : List Return} {s : Calls Unit × History Call Return}
    (h : (boot config).run rets = some s) :
    s.1.wp (contract config) (fun _ h => Started config h []) s.2 :=
  wp_run (appMain_spec config) h

/-! ### The start -/

lemma rets_of_run {rets : List Return} {s : Calls Unit × History Call Return}
    (h : (boot config).run rets = some s) : s.2.map Prod.snd = rets := by
  induction rets using List.reverseRecOn generalizing s with
  | nil =>
    cases h
    rfl
  | append_singleton rets r ih =>
    obtain ⟨t, ht, hstep⟩ := Machine.exists_of_run_concat h
    obtain ⟨c, next, -, -, rfl⟩ := exists_call_of_step hstep
    simp [ih ht]

lemma Started.length_le {h : History Call Return} {rest : List Call}
    (hs : Started config h rest) : h.length ≤ 16 := by
  obtain ⟨flash, made, rfl, hflash, horder, -⟩ := hs
  have hmade := congrArg List.length horder
  simp only [List.length_append, List.length_map, callOrder, List.length_cons,
    List.length_nil] at hmade
  cases hflash <;> simp only [List.length_append, List.length_cons, List.length_nil] <;> omega

lemma Reaches.length_le {h : History Call Return} {c : Call} (hr : Reaches config h c) :
    h.length < 16 := by
  cases hr with
  | init | erase | initAgain => simp
  | started hs =>
    have hnext := (hs.next (r := .err .ok) fun _ => rfl).length_le
    rw [List.length_append, List.length_singleton] at hnext
    exact hnext

def Call.place : Call → ℕ
  | .nvsFlashInit | .nvsFlashErase => 0
  | .espLogi _ => 1
  | .uartParamConfig _ _ => 2
  | .gpioSetDirectionOutput _ => 3
  | .uartSetPin _ _ _ _ _ => 4
  | .uartDriverInstall _ _ _ _ => 5
  | .xEventGroupCreate => 6
  | .tcpipAdapterInit => 7
  | .espEventLoopInit => 8
  | .espWifiInit => 9
  | .espWifiSetModeSta => 10
  | .espWifiSetConfigSta _ _ => 11
  | .espWifiStart => 12
  | .xTaskCreate _ _ _ => 13

lemma sorted_callOrder (config : Config) :
    (callOrder config).Pairwise fun c d => c.place < d.place := by
  simp [callOrder, Call.place]

/-- The call has returned, with success if it is checked. -/
def Returned (h : History Call Return) (c : Call) : Prop :=
  ∃ r, (c, r) ∈ h ∧ (c.checked = true → r = .err .ok)

lemma Started.returned_of_notMem {h : History Call Return} {d : Call} {rest : List Call}
    (hs : Started config h rest) (hd : d ∈ callOrder config) (hrest : d ∉ rest) :
    Returned h d := by
  obtain ⟨flash, made, rfl, -, horder, hok⟩ := hs
  rw [← horder] at hd
  obtain ⟨⟨d', r⟩, hmem, rfl⟩ := List.mem_map.mp ((List.mem_append.mp hd).resolve_right hrest)
  exact ⟨r, List.mem_append_right flash hmem, hok d' r hmem⟩

lemma Started.returned {h : History Call Return} {c d : Call} {rest : List Call}
    (hs : Started config h (c :: rest)) (hd : d ∈ callOrder config) (hlt : d.place < c.place) :
    Returned h d := by
  refine hs.returned_of_notMem hd fun hmem => ?_
  obtain ⟨flash, made, -, -, horder, -⟩ := hs
  have hsorted := sorted_callOrder config
  rw [← horder] at hsorted
  rcases List.mem_cons.mp hmem with rfl | hmem
  · exact absurd hlt (Nat.lt_irrefl _)
  · have := (List.pairwise_cons.mp (List.pairwise_append.mp hsorted).2.1).1 d hmem
    omega

lemma Returned.append {h : History Call Return} {c : Call} (hc : Returned h c)
    (h' : History Call Return) : Returned (h ++ h') c := by
  obtain ⟨r, hmem, hok⟩ := hc
  exact ⟨r, List.mem_append_left h' hmem, hok⟩

lemma returned_append {h : History Call Return} {c d : Call} {r : Return}
    (hd : Returned (h ++ [(c, r)]) d) : Returned h d ∨ d = c := by
  obtain ⟨r', hmem, hok⟩ := hd
  rcases List.mem_append.mp hmem with hmem | hmem
  · exact Or.inl ⟨r', hmem, hok⟩
  · exact Or.inr (Prod.mk.inj (List.mem_singleton.mp hmem)).1

/-- The calls that have returned decide those that are left. -/
lemma Started.unique {h : History Call Return} {rest rest' : List Call}
    (hs : Started config h rest) (hs' : Started config h rest') : rest = rest' := by
  obtain ⟨flash, made, rfl, hflash, horder, -⟩ := hs
  obtain ⟨flash', made', heq, hflash', horder', -⟩ := hs'
  have hmade : made = made' := by
    cases hflash with
    | atOnce =>
      cases hflash' with
      | atOnce => simpa using heq
      | erased => simp at heq
    | erased =>
      cases hflash' with
      | atOnce => simp at heq
      | erased => simpa using heq
  rw [hmade, ← horder'] at horder
  exact List.append_cancel_left horder

lemma Started.head {h : History Call Return} {rest : List Call} {c : Call}
    (hs : Started config h rest) (hr : Reaches config h c) : ∃ rest', rest = c :: rest' := by
  cases hr with
  | init => exact absurd rfl hs.ne_nil
  | erase | initAgain =>
    obtain ⟨flash, made, heq, hflash, -, -⟩ := hs
    cases hflash <;> simp at heq
  | started hs' => exact ⟨_, hs.unique hs'⟩

lemma Started.last {h : History Call Return} {c : Call} {rest : List Call}
    (hs : Started config h (c :: rest)) (hc : c.place = 13) :
    c :: rest = [.xTaskCreate "coap" 4096 5] := by
  obtain ⟨flash, made, -, -, horder, -⟩ := hs
  have hsorted := sorted_callOrder config
  have hplaces : ∀ d ∈ callOrder config, d.place ≤ 13 := by simp [callOrder, Call.place]
  have hcall : ∀ d ∈ callOrder config, d.place = 13 → d = .xTaskCreate "coap" 4096 5 := by
    simp [callOrder, Call.place]
  rw [← horder] at hsorted hplaces hcall
  have hrest : rest = [] := by
    refine List.eq_nil_iff_forall_not_mem.mpr fun d hd => ?_
    have hlt := (List.pairwise_cons.mp (List.pairwise_append.mp hsorted).2.1).1 d hd
    have hle := hplaces d (by simp [hd])
    omega
  rw [hrest, hcall c (by simp) hc]

/-- The flash is ready where the call does not belong to it. -/
lemma Reaches.exists_started {h : History Call Return} {c : Call} (hr : Reaches config h c)
    (hc : 0 < c.place) : ∃ rest, Started config h (c :: rest) := by
  cases hr with
  | init | erase | initAgain => exact absurd hc (Nat.lt_irrefl _)
  | started hs => exact ⟨_, hs⟩

lemma Reaches.returned {h : History Call Return} {c d : Call} (hr : Reaches config h c)
    (hd : d ∈ callOrder config) (hlt : d.place < c.place) : Returned h d := by
  obtain ⟨rest, hs⟩ := hr.exists_started (Nat.zero_lt_of_lt hlt)
  exact hs.returned hd hlt

/-- **The start comes in order**, whatever the calls return: each call comes after all those
before it, with the checked ones successful, and the flash is erased at most once, only where it
had no free pages. The program is aborted at the first check that fails, and only there, and it
comes to its end after sixteen calls at most. -/
theorem boot_order (config : Config) (rets : List Return) (s : Calls Unit × History Call Return)
    (h : (boot config).run rets = some s) :
    s.2.map Prod.snd = rets ∧ rets.length ≤ 16 ∧
      match s.1 with
      | .call c _ => Reaches config s.2 c
      | .done _ => Started config s.2 []
      | .aborted => Failed config s.2 := by
  have hrets := rets_of_run h
  have hkeeps := boot_keeps h
  have hlength : s.2.length ≤ 16 → rets.length ≤ 16 := by
    rw [← hrets, List.length_map]
    exact id
  obtain ⟨p, history⟩ := s
  cases p with
  | done a => exact ⟨hrets, hlength hkeeps.length_le, hkeeps⟩
  | aborted =>
    refine ⟨hrets, hlength ?_, hkeeps⟩
    obtain ⟨before, c, r, rfl, hreach, -, -, -⟩ := hkeeps
    have := hreach.length_le
    rw [List.length_append, List.length_singleton]
    omega
  | call c next => exact ⟨hrets, hlength (Nat.le_of_lt hkeeps.1.length_le), hkeeps.1⟩

/-- The wifi driver does not start up. -/
theorem boot_order_wifi : ∃ s, (boot ⟨"myssid", "mypassword"⟩).run
    [.err .nvsNoFreePages, .err .ok, .err .ok, .void, .err .ok, .err .ok, .err .ok, .err .ok,
      .group true, .void, .err .ok, .err (.other 257)] = some s ∧
      Failed ⟨"myssid", "mypassword"⟩ s.2 :=
  ⟨_, rfl, (boot_order ⟨"myssid", "mypassword"⟩ [.err .nvsNoFreePages, .err .ok, .err .ok, .void,
    .err .ok, .err .ok, .err .ok, .err .ok, .group true, .void, .err .ok, .err (.other 257)] _
    rfl).2.2⟩

end RoombaBrain.Boot
