import RoombaBrain.EventGroups
import RoombaBrain.Runs

/-!
The wifi (`wifi.c`), with the driver that posts its events and the task that waits for it.

The driver posts an event at any time. The event loop takes the events in the order of the posts
and makes the calls of `wifi_event_handler` for one event before it takes the next; between two
calls anything else may happen. The task calls `wifi_wait_active` whenever it is not blocked.
-/

namespace RoombaBrain.Wifi

open RoombaBrain.EventGroups RoombaBrain.Runs

/-- A `system_event_t`, by its `event_id`. -/
inductive Event
  | staStart
  | staGotIp (ip : UInt32)
  | staDisconnected
  | other (id : UInt32)
  deriving DecidableEq

inductive Call
  | espLogi (format : String) (arg : Option UInt32)
  | espWifiConnect
  | xEventGroupSetBits (bits : UInt32)
  | xEventGroupClearBits (bits : UInt32)
  deriving DecidableEq

/-- `WIFI_CONNECTED_BIT` -/
def wifiConnectedBit : UInt32 := 1

/-- `wifi_event_handler`: its calls, in order. -/
def wifiEventHandler : Event → List Call
  | .staStart => [.espLogi "wifi start" none, .espWifiConnect]
  | .staGotIp ip => [.espLogi "got ip: %s" (some ip), .xEventGroupSetBits wifiConnectedBit]
  | .staDisconnected => [.espLogi "wifi disconnected" none, .espWifiConnect,
      .xEventGroupClearBits wifiConnectedBit]
  | .other id => [.espLogi "unhandled wifi event %i" (some id)]

def activeWait : Wait where
  bitsToWaitFor := wifiConnectedBit
  clearOnExit := false
  waitForAllBits := true

variable {G : Type} (api : Api G)

/-- `wifi_wait_active` -/
def wifiWaitActive (group : G) : G := api.xEventGroupWaitBits group activeWait

def Call.usesGroup : Call → Bool
  | .xEventGroupSetBits _ | .xEventGroupClearBits _ => true
  | .espLogi _ _ | .espWifiConnect => false

def Call.onGroup : Call → G → G
  | .espLogi _ _, group | .espWifiConnect, group => group
  | .xEventGroupSetBits bits, group => api.xEventGroupSetBits group bits
  | .xEventGroupClearBits bits, group => api.xEventGroupClearBits group bits

/-- The event group with the task that may be blocked on it, the events posted and not taken yet,
the event being handled with the calls still to make, the events handled, and the calls made, each
with the number of its event. -/
structure World (G : Type) where
  group : G
  queue : List Event
  handler : Option (Event × List Call)
  handled : List Event
  calls : List (ℕ × Call)

def World.start : World G := ⟨api.xEventGroupCreate, [], none, [], []⟩

inductive Act
  | post (event : Event)
  | take
  | call
  | finish
  | wait

def World.step (w : World G) : Act → Option (World G)
  | .post event => some { w with queue := w.queue ++ [event] }
  | .take =>
    match w.handler, w.queue with
    | none, event :: queue =>
      some { w with queue := queue, handler := some (event, wifiEventHandler event) }
    | _, _ => none
  | .call =>
    match w.handler with
    | some (event, call :: rest) =>
      some { w with
        group := call.onGroup api w.group
        handler := some (event, rest)
        calls := w.calls ++ [(w.handled.length, call)] }
    | _ => none
  | .finish =>
    match w.handler with
    | some (event, []) => some { w with handler := none, handled := w.handled ++ [event] }
    | _ => none
  | .wait =>
    match api.waiting w.group with
    | none => some { w with group := wifiWaitActive api w.group }
    | some _ => none

def World.usesGroup (w : World G) : Act → Bool
  | .wait => true
  | .call => w.handler.any fun handler => handler.2.head?.any Call.usesGroup
  | .post _ | .take | .finish => false

def system : Machine (World G) Act := ⟨World.start api, World.step api⟩

def World.current (w : World G) : List Event := (w.handler.map Prod.fst).toList

def World.posted (w : World G) : List Event := w.handled ++ w.current ++ w.queue

def Connected (bits : UInt32) : Prop := bits &&& wifiConnectedBit = wifiConnectedBit

def linkUp : Event → Option Bool
  | .staGotIp _ => some true
  | .staDisconnected => some false
  | .staStart | .other _ => none

def Connects : Event → Prop
  | .staStart | .staDisconnected => True
  | .staGotIp _ | .other _ => False

instance (event : Event) : Decidable (Connects event) := by
  cases event <;> unfold Connects <;> infer_instance

/-! ### What a step can do -/

inductive Steps (w : World G) : Act → World G → Prop
  | post (event : Event) : Steps w (.post event) { w with queue := w.queue ++ [event] }
  | take {event queue} (hidle : w.handler = none) (hqueue : w.queue = event :: queue) :
      Steps w .take { w with queue := queue, handler := some (event, wifiEventHandler event) }
  | call {event call rest} (hhandler : w.handler = some (event, call :: rest)) :
      Steps w .call { w with
        group := call.onGroup api w.group
        handler := some (event, rest)
        calls := w.calls ++ [(w.handled.length, call)] }
  | finish {event} (hhandler : w.handler = some (event, [])) :
      Steps w .finish { w with handler := none, handled := w.handled ++ [event] }
  | wait (hfree : api.waiting w.group = none) :
      Steps w .wait { w with group := wifiWaitActive api w.group }

variable {api}

lemma steps_of_step {w w' : World G} {act : Act} (h : w.step api act = some w') :
    Steps api w act w' := by
  cases act with
  | post event =>
    cases h
    exact .post event
  | take =>
    simp only [World.step] at h
    split at h
    · next event queue hidle hqueue =>
      cases h
      exact .take hidle hqueue
    · cases h
  | call =>
    simp only [World.step] at h
    split at h
    · next event call rest hhandler =>
      cases h
      exact .call hhandler
    · cases h
  | finish =>
    simp only [World.step] at h
    split at h
    · next event hhandler =>
      cases h
      exact .finish hhandler
    · cases h
  | wait =>
    simp only [World.step] at h
    split at h
    · next hfree =>
      cases h
      exact .wait hfree
    · cases h

/-! ### The event group -/

def Call.onBits : Call → UInt32 → UInt32
  | .espLogi _ _, bits | .espWifiConnect, bits => bits
  | .xEventGroupSetBits bitsToSet, bits => bits ||| bitsToSet
  | .xEventGroupClearBits bitsToClear, bits => bits &&& ~~~bitsToClear

def bitsAfter (calls : List Call) (bits : UInt32) : UInt32 :=
  calls.foldl (fun bits call => call.onBits bits) bits

/-- If a task is blocked it is in `wifi_wait_active`, and the bit is not set. -/
structure WaitsActive (api : Api G) (group : G) : Prop where
  waiting : ∀ wait, api.waiting group = some wait → wait = activeWait
  settled : api.Settled group

lemma WaitsActive.keeps {group : G} (h : WaitsActive api group) : api.Keeps group := by
  intro wait hwait
  rw [h.waiting wait hwait]
  rfl

lemma waitsActive_wait (hapi : api.Documented) {group : G} (hfree : api.waiting group = none) :
    WaitsActive api (wifiWaitActive api group) ∧
      api.bits (wifiWaitActive api group) = api.bits group := by
  refine ⟨⟨fun wait hwait => ?_, hapi.settled_waitBits hfree rfl⟩, ?_⟩
  · exact ((hapi.wait_waiting group activeWait wait hfree).mp hwait).1
  · exact hapi.wait_bits group activeWait hfree rfl

lemma waitsActive_call (hapi : api.Documented) {group : G} (h : WaitsActive api group)
    (call : Call) : WaitsActive api (call.onGroup api group) ∧
      api.bits (call.onGroup api group) = call.onBits (api.bits group) := by
  cases call with
  | espLogi | espWifiConnect => exact ⟨h, rfl⟩
  | xEventGroupSetBits bits =>
    refine ⟨⟨fun wait hwait => ?_, hapi.settled_setBits h.keeps bits⟩,
      hapi.set_bits group bits h.keeps⟩
    exact h.waiting wait ((hapi.set_waiting group bits wait).mp hwait).1
  | xEventGroupClearBits bits =>
    refine ⟨⟨fun wait hwait => ?_, hapi.settled_clearBits h.settled bits⟩,
      hapi.clear_bits group bits⟩
    exact h.waiting wait ((hapi.clear_waiting group bits).symm.trans hwait)

/-! ### The calls made -/

/-- The calls for events, each with the number of its event, counted from `n`. -/
def callsOf : ℕ → List Event → List (ℕ × Call)
  | _, [] => []
  | n, event :: events => (wifiEventHandler event).map (Prod.mk n) ++ callsOf (n + 1) events

lemma callsOf_append (n : ℕ) (events events' : List Event) :
    callsOf n (events ++ events') = callsOf n events ++ callsOf (n + events.length) events' := by
  induction events generalizing n with
  | nil => rfl
  | cons event events ih =>
    rw [List.cons_append, callsOf, callsOf, ih, List.length_cons, List.append_assoc,
      Nat.add_assoc, Nat.add_comm 1]

lemma callsOf_singleton (n : ℕ) (event : Event) :
    callsOf n [event] = (wifiEventHandler event).map (Prod.mk n) := List.append_nil _

lemma mem_callsOf {n m : ℕ} {events : List Event} {call : Call}
    (h : (m, call) ∈ callsOf n events) :
    n ≤ m ∧ ∃ event, events[m - n]? = some event ∧ call ∈ wifiEventHandler event := by
  induction events generalizing n with
  | nil => cases h
  | cons event events ih =>
    rw [callsOf, List.mem_append] at h
    rcases h with h | h
    · obtain ⟨call', hcall, heq⟩ := List.mem_map.mp h
      cases heq
      exact ⟨Nat.le_refl _, event, by simp, hcall⟩
    · obtain ⟨hle, event', hevent, hcall⟩ := ih h
      refine ⟨by omega, event', ?_, hcall⟩
      have hsub : m - n = (m - (n + 1)) + 1 := by omega
      rw [hsub, List.getElem?_cons_succ, hevent]

lemma sorted_callsOf (n : ℕ) (events : List Event) :
    (callsOf n events).Pairwise fun a b => a.1 ≤ b.1 := by
  induction events generalizing n with
  | nil => exact List.Pairwise.nil
  | cons event events ih =>
    rw [callsOf, List.pairwise_append]
    refine ⟨?_, ih (n + 1), ?_⟩
    · rw [List.pairwise_map]
      exact List.pairwise_of_forall fun _ _ => Nat.le_refl n
    · rintro a ha ⟨m, call⟩ hb
      obtain ⟨call', -, rfl⟩ := List.mem_map.mp ha
      exact Nat.le_of_succ_le (mem_callsOf hb).1

/-- The calls made are those for the events handled, and the first ones for the event being
handled. They decide the bits. -/
structure Inv (api : Api G) (w : World G) : Prop where
  calls : ∃ done, w.calls = callsOf 0 w.handled ++ done.map (Prod.mk w.handled.length) ∧
    match w.handler with
    | none => done = []
    | some (event, rest) => wifiEventHandler event = done ++ rest
  bits : api.bits w.group = bitsAfter (w.calls.map Prod.snd) 0
  group : WaitsActive api w.group

lemma inv_start (hapi : api.Documented) : Inv api (World.start api) := by
  refine ⟨⟨[], rfl, rfl⟩, hapi.create_bits, fun wait hwait => ?_, hapi.settled_create⟩
  cases hapi.create_waiting.symm.trans hwait

lemma inv_step (hapi : api.Documented) {w w' : World G} {act : Act} (hw : Inv api w)
    (h : Steps api w act w') : Inv api w' := by
  obtain ⟨⟨done, hcalls, hdone⟩, hbits, hgroup⟩ := hw
  cases h with
  | post event => exact ⟨⟨done, hcalls, hdone⟩, hbits, hgroup⟩
  | take hidle hqueue =>
    rw [hidle] at hdone
    subst hdone
    exact ⟨⟨[], hcalls, rfl⟩, hbits, hgroup⟩
  | @call event call rest hhandler =>
    rw [hhandler] at hdone
    obtain ⟨hgroup', hbits'⟩ := waitsActive_call hapi hgroup call
    refine ⟨⟨done ++ [call], ?_, ?_⟩, ?_, hgroup'⟩
    · simp [hcalls]
    · simp [hdone]
    · simp [hbits', hbits, bitsAfter]
  | @finish event hhandler =>
    rw [hhandler] at hdone
    simp only [List.append_nil] at hdone
    refine ⟨⟨[], ?_, rfl⟩, hbits, hgroup⟩
    simp [hcalls, callsOf_append, callsOf_singleton, hdone]
  | wait hfree =>
    obtain ⟨hgroup', hbits'⟩ := waitsActive_wait hapi hfree
    exact ⟨⟨done, hcalls, hdone⟩, hbits'.trans hbits, hgroup'⟩

lemma inv_run (hapi : api.Documented) {acts : List Act} {w : World G}
    (h : (system api).run acts = some w) : Inv api w :=
  Machine.invariant (I := Inv api) (inv_start hapi)
    (fun _ _ _ hw hstep => inv_step hapi hw (steps_of_step hstep)) h

/-! ### The bit -/

/-- Without a call that clears bits the bit stays set. -/
lemma connected_bitsAfter {calls : List Call} {bits : UInt32} (h : Connected bits)
    (hclear : ∀ m, .xEventGroupClearBits m ∉ calls) : Connected (bitsAfter calls bits) := by
  induction calls generalizing bits with
  | nil => exact h
  | cons call calls ih =>
    have hrest : ∀ m, .xEventGroupClearBits m ∉ calls := fun m hmem =>
      hclear m (List.mem_cons_of_mem call hmem)
    cases call with
    | espLogi | espWifiConnect => exact ih h hrest
    | xEventGroupSetBits m => exact ih (and_of_set h m) hrest
    | xEventGroupClearBits m => exact absurd List.mem_cons_self (hclear m)

/-- The calls for an event set the bit, clear it or leave it, by what the event says. -/
lemma connected_handler (event : Event) (bits : UInt32) :
    Connected (bitsAfter (wifiEventHandler event) bits) ↔
      match linkUp event with
      | some up => up = true
      | none => Connected bits := by
  cases event with
  | staStart | other => exact Iff.rfl
  | staGotIp ip => exact iff_of_true (set_and_self bits wifiConnectedBit) rfl
  | staDisconnected =>
    refine iff_of_false (fun h => ?_) Bool.false_ne_true
    have hzero : bitsAfter (wifiEventHandler .staDisconnected) bits &&& wifiConnectedBit = 0 :=
      clear_and_self bits wifiConnectedBit
    rw [Connected, hzero] at h
    exact absurd h (by decide)

lemma bitsAfter_append (calls calls' : List Call) (bits : UInt32) :
    bitsAfter (calls ++ calls') bits = bitsAfter calls' (bitsAfter calls bits) :=
  List.foldl_append

/-- After whole events the bit is what the last of them says that says anything. -/
lemma connected_callsOf (events : List Event) :
    Connected (bitsAfter ((callsOf 0 events).map Prod.snd) 0) ↔
      (events.filterMap linkUp).getLast? = some true := by
  induction events using List.reverseRecOn with
  | nil => exact iff_of_false (by unfold Connected; decide) (by simp)
  | append_singleton events event ih =>
    have hcalls : (callsOf 0 (events ++ [event])).map Prod.snd =
        (callsOf 0 events).map Prod.snd ++ wifiEventHandler event := by
      rw [callsOf_append, callsOf_singleton]
      simp [Function.comp_def]
    rw [hcalls, bitsAfter_append, connected_handler, List.filterMap_append]
    rcases hup : linkUp event with _ | up
    · simpa [hup] using ih
    · simp [hup]

def World.connects (w : World G) : ℕ := w.calls.countP fun call => call.2 = .espWifiConnect

lemma connects_callsOf (n : ℕ) (events : List Event) :
    ((callsOf n events).countP fun call => call.2 = .espWifiConnect) =
      events.countP fun event => Connects event := by
  induction events generalizing n with
  | nil => rfl
  | cons event events ih =>
    rw [callsOf, List.countP_append, ih, List.countP_cons, Nat.add_comm]
    cases event <;> rfl

/-! ### No lost wake-up -/

/-- In any state: when no event is being handled, the bit is what the last event of the link says,
and the driver has been told to connect once for each event that asks for it. The calls are those
for the events in the order of the posts, so that what clears the bit after it was set belongs to
a later event. Once a `staGotIp` is handled, the bit is set and the task is not blocked until a
later disconnection is taken. -/
structure NoLostWakeUp (api : Api G) (w : World G) : Prop where
  connected : w.handler = none →
    (Connected (api.bits w.group) ↔ (w.handled.filterMap linkUp).getLast? = some true)
  connects : w.handler = none → w.connects = w.handled.countP fun event => Connects event
  ofPost : ∀ n call, (n, call) ∈ w.calls →
    ∃ event, w.posted[n]? = some event ∧ call ∈ wifiEventHandler event
  notErased : ∀ before n m later,
    w.calls = before ++ (n, .xEventGroupSetBits wifiConnectedBit) :: later →
      (m, .xEventGroupClearBits wifiConnectedBit) ∈ later → n < m
  wakes : ∀ before ip later, w.handled = before ++ .staGotIp ip :: later →
    .staDisconnected ∉ later ++ w.current →
      Connected (api.bits w.group) ∧ api.waiting w.group = none
  blocked : api.waiting w.group ≠ none → ¬ Connected (api.bits w.group)

/-- The calls made are the first of those for the events taken. -/
lemma Inv.firstCalls {w : World G} (hw : Inv api w) :
    w.calls <+: callsOf 0 (w.handled ++ w.current) := by
  obtain ⟨done, hcalls, hdone⟩ := hw.calls
  rcases hhandler : w.handler with _ | ⟨event, rest⟩ <;> rw [hhandler] at hdone
  · subst hdone
    simp [hcalls, World.current, hhandler]
  · refine ⟨rest.map (Prod.mk w.handled.length), ?_⟩
    simp [hcalls, World.current, hhandler, callsOf_append, callsOf_singleton, hdone]

lemma Inv.idle {w : World G} (hw : Inv api w) (hidle : w.handler = none) :
    w.calls = callsOf 0 w.handled := by
  obtain ⟨done, hcalls, hdone⟩ := hw.calls
  rw [hidle] at hdone
  subst hdone
  simpa using hcalls

lemma not_clears {event : Event} (h : event ≠ .staDisconnected) (m : UInt32) :
    .xEventGroupClearBits m ∉ wifiEventHandler event := by
  cases event <;> simp_all [wifiEventHandler]

lemma Inv.blocked {w : World G} (hw : Inv api w) (h : api.waiting w.group ≠ none) :
    ¬ Connected (api.bits w.group) := by
  obtain ⟨wait, hwait⟩ := Option.ne_none_iff_exists'.mp h
  have hmet := hw.group.settled wait hwait
  rw [hw.group.waiting wait hwait] at hmet
  exact hmet

lemma Inv.free {w : World G} (hw : Inv api w) (h : Connected (api.bits w.group)) :
    api.waiting w.group = none := by
  by_contra hblocked
  exact hw.blocked hblocked h

lemma Inv.wakes {w : World G} (hw : Inv api w) {before later : List Event} {ip : UInt32}
    (hhandled : w.handled = before ++ .staGotIp ip :: later)
    (hlater : .staDisconnected ∉ later ++ w.current) : Connected (api.bits w.group) := by
  obtain ⟨after, hafter⟩ := hw.firstCalls
  obtain ⟨done, hcalls, hdone⟩ := hw.calls
  have hsplit : w.calls.map Prod.snd =
      ((callsOf 0 (before ++ [.staGotIp ip])).map Prod.snd) ++
        ((callsOf (before.length + 1) later).map Prod.snd ++ done) := by
    rw [hcalls, hhandled, ← List.singleton_append, ← List.append_assoc, callsOf_append]
    simp [Function.comp_def]
  rw [hw.bits, hsplit, bitsAfter_append]
  refine connected_bitsAfter ((connected_callsOf _).mpr (by simp [linkUp])) fun m hmem => ?_
  rw [List.mem_append] at hmem
  rcases hmem with hmem | hmem
  · obtain ⟨⟨n, call⟩, hcall, rfl⟩ := List.mem_map.mp hmem
    obtain ⟨-, event, hevent, hclear⟩ := mem_callsOf hcall
    refine not_clears (fun hdisc => ?_) m hclear
    exact hlater (List.mem_append_left _ (hdisc ▸ List.mem_of_getElem? hevent))
  · rcases hhandler : w.handler with _ | ⟨event, rest⟩ <;> rw [hhandler] at hdone
    · subst hdone
      cases hmem
    · refine not_clears (fun hdisc => ?_) m (hdone ▸ List.mem_append_left rest hmem)
      exact hlater (List.mem_append_right _ (by simp [World.current, hhandler, hdisc]))

lemma Inv.connected {w : World G} (hw : Inv api w) (hidle : w.handler = none) :
    Connected (api.bits w.group) ↔ (w.handled.filterMap linkUp).getLast? = some true := by
  rw [hw.bits, hw.idle hidle]
  exact connected_callsOf w.handled

lemma Inv.connects {w : World G} (hw : Inv api w) (hidle : w.handler = none) :
    w.connects = w.handled.countP fun event => Connects event := by
  rw [World.connects, hw.idle hidle]
  exact connects_callsOf 0 w.handled

/-- The number of a call is that of an event taken, whose handler makes it. -/
lemma Inv.ofTaken {w : World G} (hw : Inv api w) {n : ℕ} {call : Call}
    (hmem : (n, call) ∈ w.calls) : ∃ event, (w.handled ++ w.current)[n]? = some event ∧
      call ∈ wifiEventHandler event := (mem_callsOf (hw.firstCalls.subset hmem)).2

lemma Inv.ofPost {w : World G} (hw : Inv api w) {n : ℕ} {call : Call}
    (hmem : (n, call) ∈ w.calls) :
    ∃ event, w.posted[n]? = some event ∧ call ∈ wifiEventHandler event := by
  obtain ⟨event, hevent, hcall⟩ := hw.ofTaken hmem
  refine ⟨event, ?_, hcall⟩
  rw [World.posted, List.getElem?_append_left]
  · exact hevent
  · exact (List.getElem?_eq_some_iff.mp hevent).1

/-- No handler both sets and clears the bit. -/
lemma not_sets_and_clears {event : Event} {m : UInt32}
    (hset : .xEventGroupSetBits m ∈ wifiEventHandler event) (m' : UInt32) :
    .xEventGroupClearBits m' ∉ wifiEventHandler event := by
  refine not_clears (fun hdisc => ?_) m'
  subst hdisc
  simp [wifiEventHandler] at hset

/-- What clears bits after bits were set belongs to a later event. -/
lemma Inv.notErased {w : World G} (hw : Inv api w) {before later : List (ℕ × Call)} {n m : ℕ}
    {bits bits' : UInt32} (hcalls : w.calls = before ++ (n, .xEventGroupSetBits bits) :: later)
    (hmem : (m, .xEventGroupClearBits bits') ∈ later) : n < m := by
  have hsorted := (sorted_callsOf 0 (w.handled ++ w.current)).sublist hw.firstCalls.sublist
  have hle : n ≤ m := by
    rw [hcalls, List.pairwise_append, List.pairwise_cons] at hsorted
    exact hsorted.2.1.1 _ hmem
  refine Nat.lt_of_le_of_ne hle fun heq => ?_
  subst heq
  obtain ⟨event, hevent, hset⟩ := hw.ofTaken
    (hcalls ▸ List.mem_append_right before List.mem_cons_self)
  obtain ⟨event', hevent', hclear⟩ := hw.ofTaken
    (hcalls ▸ List.mem_append_right before (List.mem_cons_of_mem _ hmem))
  rw [hevent] at hevent'
  cases hevent'
  exact not_sets_and_clears hset bits' hclear

def posts (acts : List Act) : List Event :=
  acts.filterMap fun
    | .post event => some event
    | _ => none

lemma posted_step {w w' : World G} {act : Act} (h : Steps api w act w') :
    w'.posted = w.posted ++ posts [act] := by
  cases h with
  | post event => simp [posts, World.posted, World.current]
  | take hidle hqueue => simp [posts, World.posted, World.current, hidle, hqueue]
  | call hhandler => simp [posts, World.posted, World.current, hhandler]
  | finish hhandler => simp [posts, World.posted, World.current, hhandler]
  | wait => simp [posts, World.posted, World.current]

lemma posted_run {acts : List Act} {w : World G} (h : (system api).run acts = some w) :
    w.posted = posts acts := by
  induction acts using List.reverseRecOn generalizing w with
  | nil =>
    cases h
    rfl
  | append_singleton acts act ih =>
    obtain ⟨v, hv, hstep⟩ := Machine.exists_of_run_concat h
    rw [posts, List.filterMap_append, ← posts, ← posts, ← ih hv]
    exact posted_step (steps_of_step hstep)

lemma Inv.noLostWakeUp {w : World G} (hw : Inv api w) : NoLostWakeUp api w where
  connected := hw.connected
  connects := hw.connects
  ofPost _ _ := hw.ofPost
  notErased _ _ _ _ := hw.notErased
  wakes _ _ _ hhandled hlater :=
    have hconnected := hw.wakes hhandled hlater
    ⟨hconnected, hw.free hconnected⟩
  blocked := hw.blocked

/-- **No wake-up is lost**, in any order in which the driver, the event loop and the task act: the
events are taken as they were posted, and in every state reached the bit and the task are as they
should be. -/
theorem no_lost_wakeup (hapi : api.Documented) (acts : List Act) (w : World G)
    (h : (system api).run acts = some w) : w.posted = posts acts ∧ NoLostWakeUp api w :=
  ⟨posted_run h, (inv_run hapi h).noLostWakeUp⟩

/-- The address of a reconnection is posted while the disconnection is still handled, between the
connect and the clear. The task, blocked since before, is woken. -/
theorem no_lost_wakeup_window : ∃ w, (system eventGroups).run [.wait, .post .staDisconnected,
    .take, .call, .call, .post (.staGotIp 1), .call, .finish, .take, .call, .call, .finish] =
      some w ∧ Connected w.group.bits ∧ w.group.waiting = none := by
  obtain ⟨-, hw⟩ := no_lost_wakeup documented_eventGroups [.wait, .post .staDisconnected, .take,
    .call, .call, .post (.staGotIp 1), .call, .finish, .take, .call, .call, .finish] _ rfl
  exact ⟨_, rfl, hw.wakes [.staDisconnected] 1 [] rfl (by decide)⟩

/-! ### The loop comes through -/

def Act.ofLoop : Act → Prop
  | .take | .call | .finish => True
  | .post _ | .wait => False

lemma finishes {w : World G} {event : Event} {rest : List Call}
    (h : w.handler = some (event, rest)) : ∃ acts w', (∀ act ∈ acts, act.ofLoop) ∧
      (system api).runFrom w acts = some w' ∧ w'.handler = none ∧ w'.queue = w.queue ∧
      w'.handled = w.handled ++ [event] := by
  induction rest generalizing w with
  | nil =>
    refine ⟨[.finish], { w with handler := none, handled := w.handled ++ [event] }, by
      simp [Act.ofLoop], ?_, rfl, rfl, rfl⟩
    simp [system, World.step, h]
  | cons call rest ih =>
    obtain ⟨acts, w', hloop, hrun, hhandler, hqueue, hhandled⟩ := ih (w := { w with
      group := call.onGroup api w.group
      handler := some (event, rest)
      calls := w.calls ++ [(w.handled.length, call)] }) rfl
    refine ⟨.call :: acts, w', ?_, ?_, hhandler, hqueue, hhandled⟩
    · simpa [Act.ofLoop] using hloop
    · simpa [system, World.step, h] using hrun

lemma handles_queue {w : World G} (hidle : w.handler = none) :
    ∃ acts w', (∀ act ∈ acts, act.ofLoop) ∧ (system api).runFrom w acts = some w' ∧
      w'.handler = none ∧ w'.queue = [] ∧ w'.handled = w.handled ++ w.queue := by
  induction hqueue : w.queue generalizing w with
  | nil => exact ⟨[], w, by simp, rfl, hidle, hqueue, (List.append_nil _).symm⟩
  | cons event queue ih =>
    obtain ⟨acts, v, hloop, hrun, hhandler, hrest, hhandled⟩ := finishes (w := { w with
      queue := queue
      handler := some (event, wifiEventHandler event) }) rfl
    obtain ⟨acts', w', hloop', hrun', hhandler', hqueue', hhandled'⟩ := ih hhandler hrest
    refine ⟨.take :: (acts ++ acts'), w', ?_, ?_, hhandler', hqueue', ?_⟩
    · intro act hmem
      rcases List.mem_cons.mp hmem with rfl | hmem
      · trivial
      · rcases List.mem_append.mp hmem with hmem | hmem
        · exact hloop act hmem
        · exact hloop' act hmem
    · have htake : (system api).step w .take = some { w with
          queue := queue
          handler := some (event, wifiEventHandler event) } := by
        simp [system, World.step, hidle, hqueue]
      rw [Machine.runFrom_cons, htake, Option.bind_some, Machine.runFrom_append, hrun]
      exact hrun'
    · rw [hhandled', hhandled, List.append_assoc]
      rfl

/-- **The event loop handles whatever was posted**, with steps of its own. -/
theorem handles_all (w : World G) : ∃ acts w', (∀ act ∈ acts, act.ofLoop) ∧
    (system api).runFrom w acts = some w' ∧ w'.handler = none ∧ w'.queue = [] ∧
      w'.handled = w.posted := by
  rcases hhandler : w.handler with _ | ⟨event, rest⟩
  · obtain ⟨acts, w', hloop, hrun, hidle, hqueue, hhandled⟩ := handles_queue hhandler
    exact ⟨acts, w', hloop, hrun, hidle, hqueue, by
      simp [hhandled, World.posted, World.current, hhandler]⟩
  · obtain ⟨acts, v, hloop, hrun, hidle, hqueue, hhandled⟩ := finishes hhandler
    obtain ⟨acts', w', hloop', hrun', hidle', hqueue', hhandled'⟩ := handles_queue hidle
    refine ⟨acts ++ acts', w', ?_, ?_, hidle', hqueue', ?_⟩
    · intro act hmem
      rcases List.mem_append.mp hmem with hmem | hmem
      · exact hloop act hmem
      · exact hloop' act hmem
    · rw [Machine.runFrom_append, hrun]
      exact hrun'
    · simp [hhandled', hhandled, hqueue, World.posted, World.current, hhandler]

/-- **The task gets away**: in a state where an address is the last that was posted about the link,
the loop comes to a state with the bit set and the task not blocked. -/
theorem wakes_up (hapi : api.Documented) {acts : List Act} {w : World G}
    (h : (system api).run acts = some w)
    (hup : (w.posted.filterMap linkUp).getLast? = some true) :
    ∃ acts' w', (∀ act ∈ acts', act.ofLoop) ∧ (system api).run (acts ++ acts') = some w' ∧
      Connected (api.bits w'.group) ∧ api.waiting w'.group = none := by
  obtain ⟨acts', w', hloop, hrun, hidle, -, hhandled⟩ := handles_all w
  have hrun' : (system api).run (acts ++ acts') = some w' := by
    rw [Machine.run_append, h]
    exact hrun
  have hw := inv_run hapi hrun'
  have hconnected : Connected (api.bits w'.group) := by
    rw [hw.connected hidle, hhandled]
    exact hup
  exact ⟨acts', w', hloop, hrun', hconnected, hw.free hconnected⟩

end RoombaBrain.Wifi
