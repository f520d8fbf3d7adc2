import Mathlib.Data.List.Nodup
import RoombaBrain.Runs

/-!
The task that serves the endpoint (`endpoint_task` of `endpoint.c`).

The task goes from call to call. What a call returns is not up to it: contexts and resources may
come out NULL, and `select` may give any result. A context or resource is known by a number that
no other one ever has.
-/

namespace RoombaBrain.EndpointTask

open RoombaBrain.Runs

inductive Method
  | coapRequestGet
  | coapRequestPost
  deriving DecidableEq

inductive Handler
  | hndRoombaCmdGet
  | hndRoombaCmdPost
  deriving DecidableEq

/-- A call of the task. A pointer that is NULL is `none`. -/
inductive Call
  | wifiWaitActive
  | coapNewContext
  /-- `fcntl(ctx->sockfd, F_GETFL, 0)` -/
  | fcntlGetfl (ctx : Option ℕ)
  /-- `fcntl(ctx->sockfd, F_SETFL, flags | O_NONBLOCK)` -/
  | fcntlSetfl (ctx : Option ℕ) (flags : Int32)
  | coapResourceInit (uri : String) (len : ℕ) (flags : Int32)
  | coapRegisterHandler (resource : Option ℕ) (method : Method) (handler : Handler)
  | coapAddResource (ctx resource : Option ℕ)
  /-- `select(ctx->sockfd + 1, &readfds, 0, 0, &tv)`, with `ctx->sockfd` in `readfds` -/
  | select (ctx : Option ℕ)
  | coapRead (ctx : Option ℕ)
  | coapFreeContext (ctx : Option ℕ)
  deriving DecidableEq

/-- What a call returns: nothing that is used, a pointer, the flags of a socket, or the result of
`select` and whether `ctx->sockfd` is in `readfds` after it. -/
inductive Return
  | void
  | pointer (p : Option ℕ)
  | flags (flags : Int32)
  | selected (result : Int32) (isset : Bool)
  deriving DecidableEq

inductive Place
  | wifiWaitActive
  | coapNewContext
  | fcntlGetfl
  | fcntlSetfl
  | coapResourceInit
  | registerGet
  | registerPost
  | coapAddResource
  | select
  | coapRead
  | coapFreeContext
  deriving DecidableEq

structure Task where
  place : Place
  ctx : Option ℕ
  flags : Int32
  resource : Option ℕ

def Task.start : Task := ⟨.wifiWaitActive, none, 0, none⟩

def Task.call (t : Task) : Call :=
  match t.place with
  | .wifiWaitActive => .wifiWaitActive
  | .coapNewContext => .coapNewContext
  | .fcntlGetfl => .fcntlGetfl t.ctx
  | .fcntlSetfl => .fcntlSetfl t.ctx t.flags
  | .coapResourceInit => .coapResourceInit "roomba/cmd" 10 0
  | .registerGet => .coapRegisterHandler t.resource .coapRequestGet .hndRoombaCmdGet
  | .registerPost => .coapRegisterHandler t.resource .coapRequestPost .hndRoombaCmdPost
  | .coapAddResource => .coapAddResource t.ctx t.resource
  | .select => .select t.ctx
  | .coapRead => .coapRead t.ctx
  | .coapFreeContext => .coapFreeContext t.ctx

/-- `endpoint_task` from the return of one call to the next call. -/
def Task.resume (t : Task) (ret : Return) : Option Task :=
  match t.place, ret with
  | .wifiWaitActive, .void => some { t with place := .coapNewContext }
  | .coapNewContext, .pointer ctx =>
    some { t with
      ctx := ctx
      place := if ctx.isSome then .fcntlGetfl else .wifiWaitActive }
  | .fcntlGetfl, .flags flags => some { t with flags := flags, place := .fcntlSetfl }
  | .fcntlSetfl, .void => some { t with place := .coapResourceInit }
  | .coapResourceInit, .pointer resource =>
    some { t with resource := resource, place := .registerGet }
  | .registerGet, .void => some { t with place := .registerPost }
  | .registerPost, .void => some { t with place := .coapAddResource }
  | .coapAddResource, .void =>
    -- the resource is tested only here
    some { t with place := if t.resource.isSome then .select else .coapFreeContext }
  | .select, .selected result isset =>
    some { t with
      place :=
        if 0 < result then
          if isset then .coapRead else .select
        else if result < 0 then .coapFreeContext
        else .select }
  | .coapRead, .void => some { t with place := .select }
  | .coapFreeContext, .void => some { t with place := .wifiWaitActive }
  | _, _ => none

/-! ### What was done -/

abbrev History := List (Call × Return)

def created (h : History) : List ℕ :=
  h.filterMap fun
    | (.coapNewContext, .pointer p) => p
    | _ => none

def freed (h : History) : List ℕ :=
  h.filterMap fun
    | (.coapFreeContext p, _) => p
    | _ => none

def initialised (h : History) : List ℕ :=
  h.filterMap fun
    | (.coapResourceInit _ _ _, .pointer p) => p
    | _ => none

def Live (h : History) (c : ℕ) : Prop := c ∈ created h ∧ c ∉ freed h

def Registered (h : History) (r : ℕ) (method : Method) (handler : Handler) : Prop :=
  (.coapRegisterHandler (some r) method handler, .void) ∈ h

def Handled (h : History) (r : ℕ) : Prop :=
  Registered h r .coapRequestGet .hndRoombaCmdGet ∧
    Registered h r .coapRequestPost .hndRoombaCmdPost

def Added (h : History) (c r : ℕ) : Prop := (.coapAddResource (some c) (some r), .void) ∈ h

/-- What a call may return after the calls before: a context or resource is a new one. -/
def May (h : History) : Call → Return → Prop
  | .coapNewContext, .pointer (some c) => c ∉ created h
  | .coapResourceInit _ _ _, .pointer (some r) => r ∉ initialised h
  | _, _ => True

instance (h : History) (call : Call) (ret : Return) : Decidable (May h call ret) := by
  unfold May
  split <;> infer_instance

structure State where
  task : Task
  history : History

def State.call (s : State) : Call := s.task.call

def State.step (s : State) (ret : Return) : Option State :=
  if May s.history s.call ret then
    (s.task.resume ret).map fun t => ⟨t, s.history ++ [(s.call, ret)]⟩
  else none

def service : Machine State Return := ⟨⟨.start, []⟩, State.step⟩

/-! ### What a step can do -/

inductive Resumes : Task → Return → Task → Prop
  | waited {ctx flags resource} :
      Resumes ⟨.wifiWaitActive, ctx, flags, resource⟩ .void ⟨.coapNewContext, ctx, flags, resource⟩
  | noContext {ctx flags resource} :
      Resumes ⟨.coapNewContext, ctx, flags, resource⟩ (.pointer none)
        ⟨.wifiWaitActive, none, flags, resource⟩
  | newContext {ctx flags resource} (c : ℕ) :
      Resumes ⟨.coapNewContext, ctx, flags, resource⟩ (.pointer (some c))
        ⟨.fcntlGetfl, some c, flags, resource⟩
  | gotFlags {ctx flags resource} (flags' : Int32) :
      Resumes ⟨.fcntlGetfl, ctx, flags, resource⟩ (.flags flags')
        ⟨.fcntlSetfl, ctx, flags', resource⟩
  | setFlags {ctx flags resource} :
      Resumes ⟨.fcntlSetfl, ctx, flags, resource⟩ .void ⟨.coapResourceInit, ctx, flags, resource⟩
  | resourceInit {ctx flags resource} (resource' : Option ℕ) :
      Resumes ⟨.coapResourceInit, ctx, flags, resource⟩ (.pointer resource')
        ⟨.registerGet, ctx, flags, resource'⟩
  | registeredGet {ctx flags resource} :
      Resumes ⟨.registerGet, ctx, flags, resource⟩ .void ⟨.registerPost, ctx, flags, resource⟩
  | registeredPost {ctx flags resource} :
      Resumes ⟨.registerPost, ctx, flags, resource⟩ .void ⟨.coapAddResource, ctx, flags, resource⟩
  | noResource {ctx flags} :
      Resumes ⟨.coapAddResource, ctx, flags, none⟩ .void ⟨.coapFreeContext, ctx, flags, none⟩
  | addedResource {ctx flags} (r : ℕ) :
      Resumes ⟨.coapAddResource, ctx, flags, some r⟩ .void ⟨.select, ctx, flags, some r⟩
  | readable {ctx flags resource} {result : Int32} (hresult : 0 < result) :
      Resumes ⟨.select, ctx, flags, resource⟩ (.selected result true)
        ⟨.coapRead, ctx, flags, resource⟩
  | again {ctx flags resource} {result : Int32} {isset : Bool} (hresult : ¬ result < 0) :
      Resumes ⟨.select, ctx, flags, resource⟩ (.selected result isset)
        ⟨.select, ctx, flags, resource⟩
  | failed {ctx flags resource} {result : Int32} {isset : Bool} (hresult : result < 0) :
      Resumes ⟨.select, ctx, flags, resource⟩ (.selected result isset)
        ⟨.coapFreeContext, ctx, flags, resource⟩
  | read {ctx flags resource} :
      Resumes ⟨.coapRead, ctx, flags, resource⟩ .void ⟨.select, ctx, flags, resource⟩
  | freedContext {ctx flags resource} :
      Resumes ⟨.coapFreeContext, ctx, flags, resource⟩ .void
        ⟨.wifiWaitActive, ctx, flags, resource⟩

lemma resumes_of_select {ctx resource : Option ℕ} {flags result : Int32} {isset : Bool}
    {t' : Task} (h : Task.resume ⟨.select, ctx, flags, resource⟩ (.selected result isset) =
      some t') : Resumes ⟨.select, ctx, flags, resource⟩ (.selected result isset) t' := by
  obtain rfl := Option.some.inj h
  by_cases hread : 0 < result
  · rw [if_pos hread]
    cases isset with
    | true => exact .readable hread
    | false => exact .again (Int32.lt_asymm hread)
  · rw [if_neg hread]
    by_cases hfail : result < 0
    · rw [if_pos hfail]
      exact .failed hfail
    · rw [if_neg hfail]
      exact .again hfail

lemma resumes_of_resume : ∀ {t t' : Task} {ret : Return}, t.resume ret = some t' →
    Resumes t ret t'
  | ⟨.wifiWaitActive, _, _, _⟩, _, .void, rfl => .waited
  | ⟨.coapNewContext, _, _, _⟩, _, .pointer none, rfl => .noContext
  | ⟨.coapNewContext, _, _, _⟩, _, .pointer (some c), rfl => .newContext c
  | ⟨.fcntlGetfl, _, _, _⟩, _, .flags flags, rfl => .gotFlags flags
  | ⟨.fcntlSetfl, _, _, _⟩, _, .void, rfl => .setFlags
  | ⟨.coapResourceInit, _, _, _⟩, _, .pointer resource, rfl => .resourceInit resource
  | ⟨.registerGet, _, _, _⟩, _, .void, rfl => .registeredGet
  | ⟨.registerPost, _, _, _⟩, _, .void, rfl => .registeredPost
  | ⟨.coapAddResource, _, _, none⟩, _, .void, rfl => .noResource
  | ⟨.coapAddResource, _, _, some r⟩, _, .void, rfl => .addedResource r
  | ⟨.select, _, _, _⟩, _, .selected _ _, h => resumes_of_select h
  | ⟨.coapRead, _, _, _⟩, _, .void, rfl => .read
  | ⟨.coapFreeContext, _, _, _⟩, _, .void, rfl => .freedContext

lemma resumes_of_step {s s' : State} {ret : Return} (h : s.step ret = some s') :
    May s.history s.call ret ∧ Resumes s.task ret s'.task ∧
      s'.history = s.history ++ [(s.call, ret)] := by
  unfold State.step at h
  split at h
  · next hmay =>
    obtain ⟨t, hresume, rfl⟩ := Option.map_eq_some_iff.mp h
    exact ⟨hmay, resumes_of_resume hresume, rfl⟩
  · cases h

/-! ### The contexts -/

lemma created_append (h h' : History) : created (h ++ h') = created h ++ created h' :=
  List.filterMap_append

lemma freed_append (h h' : History) : freed (h ++ h') = freed h ++ freed h' :=
  List.filterMap_append

lemma live_append {h : History} {last : Call × Return} (hcreated : created [last] = [])
    (hfreed : freed [last] = []) (c : ℕ) : Live (h ++ [last]) c ↔ Live h c := by
  rw [Live, created_append, freed_append, hcreated, hfreed, List.append_nil, List.append_nil,
    Live]

structure FreedOnce (h : History) : Prop where
  nodup : (freed h).Nodup
  created : ∀ c ∈ freed h, c ∈ created h

lemma FreedOnce.append {h : History} (hh : FreedOnce h) {last : Call × Return}
    (hfreed : freed [last] = []) : FreedOnce (h ++ [last]) := by
  refine ⟨?_, fun c hc => ?_⟩
  · rw [freed_append, hfreed, List.append_nil]
    exact hh.nodup
  · rw [freed_append, hfreed, List.append_nil] at hc
    rw [created_append]
    exact List.mem_append_left _ (hh.created c hc)

def Task.Holds (t : Task) (h : History) : Prop :=
  match t.place with
  | .wifiWaitActive | .coapNewContext => ∀ c, ¬ Live h c
  | _ => ∃ c, t.ctx = some c ∧ ∀ d, Live h d ↔ d = c

lemma FreedOnce.free {h : History} (hh : FreedOnce h) {c : ℕ} (hlive : Live h c) (ret : Return) :
    FreedOnce (h ++ [(.coapFreeContext (some c), ret)]) := by
  have hfreed : freed (h ++ [(.coapFreeContext (some c), ret)]) = freed h ++ [c] :=
    freed_append h _
  have hdisjoint : (freed h).Disjoint [c] := List.disjoint_singleton.mpr hlive.2
  refine ⟨?_, fun d hd => ?_⟩
  · rw [hfreed]
    exact hh.nodup.append (List.nodup_singleton c) hdisjoint
  · rw [created_append]
    refine List.mem_append_left _ ?_
    rw [hfreed, List.mem_append, List.mem_singleton] at hd
    rcases hd with hd | rfl
    · exact hh.created d hd
    · exact hlive.1

lemma live_new {h : History} (hh : FreedOnce h) (hnone : ∀ d, ¬ Live h d) {c : ℕ}
    (hnew : c ∉ created h) (d : ℕ) :
    Live (h ++ [(.coapNewContext, .pointer (some c))]) d ↔ d = c := by
  have hcreated : created (h ++ [(.coapNewContext, .pointer (some c))]) = created h ++ [c] :=
    created_append h _
  have hfreed : freed (h ++ [(.coapNewContext, .pointer (some c))]) = freed h :=
    (freed_append h _).trans (List.append_nil _)
  rw [Live, hcreated, hfreed, List.mem_append, List.mem_singleton]
  constructor
  · rintro ⟨hd | hd, hnot⟩
    · exact absurd ⟨hd, hnot⟩ (hnone d)
    · exact hd
  · rintro rfl
    exact ⟨Or.inr rfl, fun hmem => hnew (hh.created d hmem)⟩

lemma live_free {h : History} {c : ℕ} (honly : ∀ d, Live h d ↔ d = c) (ret : Return) (d : ℕ) :
    ¬ Live (h ++ [(.coapFreeContext (some c), ret)]) d := by
  rintro ⟨hcreated, hfreed⟩
  rw [created_append, List.mem_append] at hcreated
  rw [freed_append, List.mem_append, not_or] at hfreed
  have hd : d ∈ created h := hcreated.resolve_right List.not_mem_nil
  exact hfreed.2 (List.mem_singleton.mpr ((honly d).mp ⟨hd, hfreed.1⟩))

lemma holds_step {t t' : Task} {ret : Return} {h : History} (hh : FreedOnce h) (ht : t.Holds h)
    (hmay : May h t.call ret) (hstep : Resumes t ret t') :
    FreedOnce (h ++ [(t.call, ret)]) ∧ t'.Holds (h ++ [(t.call, ret)]) := by
  cases hstep with
  | waited | noContext =>
    exact ⟨hh.append rfl, fun d hd => ht d ((live_append rfl rfl d).mp hd)⟩
  | newContext c => exact ⟨hh.append rfl, c, rfl, live_new hh ht hmay⟩
  | gotFlags | setFlags | resourceInit | registeredGet | registeredPost | noResource
  | addedResource | readable | again | failed | read =>
    obtain ⟨c, hctx, honly⟩ := ht
    exact ⟨hh.append rfl, c, hctx, fun d => (live_append rfl rfl d).trans (honly d)⟩
  | freedContext =>
    obtain ⟨c, hctx, honly⟩ := ht
    cases hctx
    exact ⟨hh.free ((honly c).mpr rfl) .void, live_free honly .void⟩

/-! ### The resource -/

def Task.Ready (t : Task) (h : History) : Prop :=
  match t.place with
  | .registerPost =>
    ∀ r, t.resource = some r → Registered h r .coapRequestGet .hndRoombaCmdGet
  | .coapAddResource => ∀ r, t.resource = some r → Handled h r
  | .select | .coapRead => ∃ c r, t.ctx = some c ∧ Added h c r
  | _ => True

lemma Handled.append {h : History} {r : ℕ} (hr : Handled h r) (h' : History) :
    Handled (h ++ h') r := ⟨List.mem_append_left h' hr.1, List.mem_append_left h' hr.2⟩

lemma ready_step {t t' : Task} {ret : Return} {h : History} (hholds : t.Holds h)
    (ht : t.Ready h) (hstep : Resumes t ret t') : t'.Ready (h ++ [(t.call, ret)]) := by
  cases hstep with
  | waited | noContext | newContext | gotFlags | setFlags | resourceInit | noResource | failed
  | freedContext => trivial
  | registeredGet =>
    rintro r rfl
    exact List.mem_append_right h List.mem_cons_self
  | registeredPost =>
    rintro r rfl
    exact ⟨List.mem_append_left _ (ht r rfl), List.mem_append_right h List.mem_cons_self⟩
  | addedResource r =>
    obtain ⟨c, hctx, -⟩ := hholds
    cases hctx
    exact ⟨c, r, rfl, List.mem_append_right h List.mem_cons_self⟩
  | readable | again | read =>
    obtain ⟨c, r, hctx, hadded⟩ := ht
    exact ⟨c, r, hctx, List.mem_append_left _ hadded⟩

lemma added_step {t t' : Task} {ret : Return} {h : History}
    (hadded : ∀ c r, Added h c r → Handled h r) (ht : t.Ready h) (hstep : Resumes t ret t')
    (c r : ℕ) (hr : Added (h ++ [(t.call, ret)]) c r) : Handled (h ++ [(t.call, ret)]) r := by
  rw [Added, List.mem_append, List.mem_singleton] at hr
  rcases hr with hr | hlast
  · exact (hadded c r hr).append _
  · cases hstep with
    | addedResource r' =>
      cases hlast
      exact (ht r rfl).append _
    | waited | noContext | newContext | gotFlags | setFlags | resourceInit | registeredGet
    | registeredPost | noResource | readable | again | failed | read | freedContext =>
      cases hlast

structure Inv (s : State) : Prop where
  once : FreedOnce s.history
  holds : s.task.Holds s.history
  ready : s.task.Ready s.history
  added : ∀ c r, Added s.history c r → Handled s.history r

lemma inv_start : Inv service.start :=
  ⟨⟨List.nodup_nil, fun _ hc => hc⟩, fun _ hc => List.not_mem_nil hc.1, trivial,
    fun _ _ hr => absurd hr List.not_mem_nil⟩

lemma inv_step {s s' : State} {ret : Return} (hs : Inv s) (h : s.step ret = some s') :
    Inv s' := by
  obtain ⟨hmay, hresumes, hhistory⟩ := resumes_of_step h
  obtain ⟨honce, hholds⟩ := holds_step hs.once hs.holds hmay hresumes
  have hready := ready_step hs.holds hs.ready hresumes
  have hadded := added_step hs.added hs.ready hresumes
  rw [← State.call, ← hhistory] at honce hholds hready hadded
  exact ⟨honce, hholds, hready, hadded⟩

lemma inv_run {rets : List Return} {s : State} (h : service.run rets = some s) : Inv s :=
  Machine.invariant (I := Inv) inv_start (fun _ _ _ hs hstep => inv_step hs hstep) h

/-! ### The calls -/

def Call.context : Call → Option (Option ℕ)
  | .fcntlGetfl ctx | .fcntlSetfl ctx _ | .coapAddResource ctx _ | .select ctx | .coapRead ctx
  | .coapFreeContext ctx => some ctx
  | .wifiWaitActive | .coapNewContext | .coapResourceInit _ _ _ | .coapRegisterHandler _ _ _ =>
    none

def Call.resource : Call → Option (Option ℕ)
  | .coapRegisterHandler resource _ _ | .coapAddResource _ resource => some resource
  | .wifiWaitActive | .coapNewContext | .fcntlGetfl _ | .fcntlSetfl _ _
  | .coapResourceInit _ _ _ | .select _ | .coapRead _ | .coapFreeContext _ => none

/-- No context is leaked or misused. At most one is live, and none while the task waits for the
wifi: each was freed once by then. A call is given a live context, and `coap_read` one whose
resource has both its handlers. -/
structure KeepsContexts (s : State) : Prop where
  oneLive : ∀ c d, Live s.history c → Live s.history d → c = d
  noneWaiting : s.call = .wifiWaitActive → ∀ c, ¬ Live s.history c
  freedAtMostOnce : ∀ c, (freed s.history).count c ≤ 1
  freedOnce : s.call = .wifiWaitActive → ∀ c ∈ created s.history, (freed s.history).count c = 1
  live : ∀ ctx, s.call.context = some ctx → ∃ c, ctx = some c ∧ Live s.history c
  reads : ∀ ctx, s.call = .coapRead ctx →
    ∃ c, ctx = some c ∧ Live s.history c ∧ (∃ r, Added s.history c r) ∧
      ∀ r, Added s.history c r → Handled s.history r

structure Safe (s : State) : Prop extends KeepsContexts s where
  resource : s.call.resource ≠ some none

lemma Task.Holds.cases {t : Task} {h : History} (ht : t.Holds h) :
    (∀ c, ¬ Live h c) ∧ t.call.context = none ∨
      t.call ≠ .wifiWaitActive ∧ ∃ c, t.ctx = some c ∧ ∀ d, Live h d ↔ d = c := by
  obtain ⟨place, ctx, flags, resource⟩ := t
  cases place with
  | wifiWaitActive | coapNewContext => exact Or.inl ⟨ht, rfl⟩
  | fcntlGetfl | fcntlSetfl | coapResourceInit | registerGet | registerPost | coapAddResource
  | select | coapRead | coapFreeContext => exact Or.inr ⟨Call.noConfusion, ht⟩

lemma Task.context_call {t : Task} {ctx : Option ℕ} (h : t.call.context = some ctx) :
    ctx = t.ctx := by
  obtain ⟨place, ctx', flags, resource⟩ := t
  cases place <;> cases h <;> rfl

lemma Task.ready_read {t : Task} {h : History} {ctx : Option ℕ} (ht : t.Ready h)
    (hread : t.call = .coapRead ctx) : ∃ c r, ctx = some c ∧ Added h c r := by
  obtain ⟨place, ctx', flags, resource⟩ := t
  cases place <;> cases hread
  exact ht

lemma Inv.live_context {s : State} (hs : Inv s) {ctx : Option ℕ}
    (hctx : s.call.context = some ctx) : ∃ c, ctx = some c ∧ Live s.history c := by
  rcases hs.holds.cases with ⟨-, hno⟩ | ⟨-, c, hc, honly⟩
  · exact absurd (hctx.symm.trans hno) (Option.some_ne_none ctx)
  · exact ⟨c, (Task.context_call hctx).trans hc, (honly c).mpr rfl⟩

lemma Inv.none_waiting {s : State} (hs : Inv s) (hwait : s.call = .wifiWaitActive) (c : ℕ) :
    ¬ Live s.history c := by
  rcases hs.holds.cases with ⟨hnone, -⟩ | ⟨hcall, -⟩
  · exact hnone c
  · exact absurd hwait hcall

lemma Inv.one_live {s : State} (hs : Inv s) {c d : ℕ} (hc : Live s.history c)
    (hd : Live s.history d) : c = d := by
  rcases hs.holds.cases with ⟨hnone, -⟩ | ⟨-, e, -, honly⟩
  · exact absurd hc (hnone c)
  · have hce : c = e := (honly c).mp hc
    have hde : d = e := (honly d).mp hd
    exact hce.trans hde.symm

lemma Inv.keepsContexts {s : State} (hs : Inv s) : KeepsContexts s := by
  have hcount : ∀ c, (freed s.history).count c ≤ 1 :=
    List.nodup_iff_count_le_one.mp hs.once.nodup
  have hfreed : s.call = .wifiWaitActive →
      ∀ c ∈ created s.history, (freed s.history).count c = 1 := by
    intro hwait c hc
    have hmem : c ∈ freed s.history := by
      by_contra hnot
      exact hs.none_waiting hwait c ⟨hc, hnot⟩
    exact List.count_eq_one_of_mem hs.once.nodup hmem
  refine ⟨fun c d => hs.one_live, hs.none_waiting, hcount, hfreed, fun ctx => hs.live_context,
    fun ctx hread => ?_⟩
  obtain ⟨c, r, rfl, hr⟩ := Task.ready_read hs.ready hread
  obtain ⟨d, hd, hlive⟩ := hs.live_context (congrArg Call.context hread)
  cases hd
  exact ⟨c, rfl, hlive, ⟨r, hr⟩, hs.added c⟩

/-- **The contexts are safe**, whatever the calls return. -/
theorem keeps_contexts (rets : List Return) : service.Throughout rets KeepsContexts :=
  fun _ _ _ hs => (inv_run hs).keepsContexts

/-! ### The resource that may be NULL -/

def InitSucceeds (s : State) (ret : Return) : Prop :=
  s.task.place = .coapResourceInit → ret ≠ .pointer none

lemma resource_step {t t' : Task} {ret : Return} (ht : t.call.resource ≠ some none)
    (hinit : t.place = .coapResourceInit → ret ≠ .pointer none) (hstep : Resumes t ret t') :
    t'.call.resource ≠ some none := by
  cases hstep with
  | resourceInit resource =>
    intro hnull
    exact hinit rfl (congrArg Return.pointer (Option.some.inj hnull))
  | registeredGet | registeredPost => exact ht
  | waited | noContext | newContext | gotFlags | setFlags | noResource | addedResource | readable
  | again | failed | read | freedContext => exact (Option.some_ne_none none).symm

/-- The return of NULL takes the task to `coap_register_handler`. -/
lemma run_initFails {rets : List Return} {s : State} (h : service.run rets = some s)
    (hplace : s.task.place = .coapResourceInit) :
    ∃ s', service.run (rets ++ [.pointer none]) = some s' ∧ s'.call.resource = some none := by
  refine ⟨⟨{ s.task with resource := none, place := .registerGet },
    s.history ++ [(s.call, .pointer none)]⟩, ?_, rfl⟩
  rw [Machine.run_concat, h]
  obtain ⟨⟨place, ctx, flags, resource⟩, history⟩ := s
  cases hplace
  rfl

/-- **Nothing is misused exactly as long as `coap_resource_init` does not return NULL.** The
resource is tested after it is used. -/
theorem safe_iff (rets : List Return) :
    service.Throughout rets Safe ↔ service.EachStep rets InitSucceeds := by
  constructor
  · intro hsafe before ret s hprefix hs hplace hret
    subst hret
    obtain ⟨s', hs', hnull⟩ := run_initFails hs hplace
    exact (hsafe _ s' hprefix hs').resource hnull
  · intro hinit before s hprefix hs
    have hresource : service.Throughout rets fun s => s.call.resource ≠ some none :=
      Machine.throughout_of_eachStep (Option.some_ne_none none).symm
        (fun r ret t hr hret hstep => resource_step hr hret (resumes_of_step hstep).2.1) hinit
    exact ⟨keeps_contexts rets before s hprefix hs, hresource before s hprefix hs⟩

/-- The first round gets a context, and NULL for the resource. -/
theorem null_registered : ∃ s, service.run [.void, .pointer (some 0), .flags 0, .void,
    .pointer none] = some s ∧
      s.call = .coapRegisterHandler none .coapRequestGet .hndRoombaCmdGet ∧ ¬ Safe s :=
  ⟨_, rfl, rfl, fun h => h.resource rfl⟩

end RoombaBrain.EndpointTask
