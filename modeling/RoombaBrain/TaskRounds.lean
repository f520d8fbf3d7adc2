import RoombaBrain.EndpointTask

/-!
The rounds of the task.

What `endpoint_task` does is told here without its variables: round after round it waits for the
wifi, makes a context, sets it up, reads from it while `select` does not fail, and frees it. The
task does nothing else, and can do all of it.
-/

namespace RoombaBrain.TaskRounds

open RoombaBrain.Runs RoombaBrain.EndpointTask

/-! ### Rounds -/

/-- A context is set up, with a resource or with NULL. The flags set are those got. -/
def setUp (c : ℕ) (flags : Int32) (resource : Option ℕ) : History :=
  [(.wifiWaitActive, .void), (.coapNewContext, .pointer (some c)),
    (.fcntlGetfl (some c), .flags flags), (.fcntlSetfl (some c) flags, .void),
    (.coapResourceInit "roomba/cmd" 10 0, .pointer resource),
    (.coapRegisterHandler resource .coapRequestGet .hndRoombaCmdGet, .void),
    (.coapRegisterHandler resource .coapRequestPost .hndRoombaCmdPost, .void),
    (.coapAddResource (some c) resource, .void)]

inductive Polls (c : ℕ) : History → Prop
  | nil : Polls c []
  | idle {polls} {result : Int32} {isset : Bool} (h : Polls c polls) (hresult : ¬ result < 0)
      (hidle : ¬ (0 < result ∧ isset = true)) :
      Polls c (polls ++ [(.select (some c), .selected result isset)])
  | read {polls} {result : Int32} (h : Polls c polls) (hresult : 0 < result) :
      Polls c (polls ++ [(.select (some c), .selected result true), (.coapRead (some c), .void)])

/-- A round: there is no context, or no resource, or the context is served until `select` fails. -/
inductive Round : History → Prop
  | noContext : Round [(.wifiWaitActive, .void), (.coapNewContext, .pointer none)]
  | noResource (c : ℕ) (flags : Int32) :
      Round (setUp c flags none ++ [(.coapFreeContext (some c), .void)])
  | served (c : ℕ) (flags : Int32) (r : ℕ) {polls} {result : Int32} {isset : Bool}
      (hpolls : Polls c polls) (hresult : result < 0) :
      Round (setUp c flags (some r) ++ polls ++
        [(.select (some c), .selected result isset), (.coapFreeContext (some c), .void)])

/-! ### The task keeps to its rounds -/

def Begun (t : Task) (rest : History) : Prop :=
  match t.place with
  | .wifiWaitActive => rest = []
  | .coapNewContext => rest = [(.wifiWaitActive, .void)]
  | .fcntlGetfl => ∃ c, t.ctx = some c ∧ rest = (setUp c t.flags t.resource).take 2
  | .fcntlSetfl => ∃ c, t.ctx = some c ∧ rest = (setUp c t.flags t.resource).take 3
  | .coapResourceInit => ∃ c, t.ctx = some c ∧ rest = (setUp c t.flags t.resource).take 4
  | .registerGet => ∃ c, t.ctx = some c ∧ rest = (setUp c t.flags t.resource).take 5
  | .registerPost => ∃ c, t.ctx = some c ∧ rest = (setUp c t.flags t.resource).take 6
  | .coapAddResource => ∃ c, t.ctx = some c ∧ rest = (setUp c t.flags t.resource).take 7
  | .select => ∃ c r polls, t.ctx = some c ∧ t.resource = some r ∧ Polls c polls ∧
      rest = setUp c t.flags (some r) ++ polls
  | .coapRead => ∃ c r polls result, t.ctx = some c ∧ t.resource = some r ∧ Polls c polls ∧
      0 < result ∧ rest = setUp c t.flags (some r) ++ polls ++
        [(.select (some c), .selected result true)]
  | .coapFreeContext => ∃ c, t.ctx = some c ∧
      (t.resource = none ∧ rest = setUp c t.flags none ∨
        ∃ r polls result isset, t.resource = some r ∧ Polls c polls ∧ result < 0 ∧
          rest = setUp c t.flags (some r) ++ polls ++
            [(.select (some c), .selected result isset)])

section
variable {ctx resource : Option ℕ} {flags result : Int32} {isset : Bool}

lemma resume_select : Task.resume ⟨.select, ctx, flags, resource⟩ (.selected result isset) =
    some ⟨if 0 < result then if isset then .coapRead else .select
      else if result < 0 then .coapFreeContext else .select, ctx, flags, resource⟩ := rfl

/-- `select` is called again when there is nothing to read. -/
lemma idle_of_again (h : Task.resume ⟨.select, ctx, flags, resource⟩ (.selected result isset) =
    some ⟨.select, ctx, flags, resource⟩) : ¬ (0 < result ∧ isset = true) := by
  rintro ⟨hpos, rfl⟩
  have hplace := congrArg Task.place (Option.some.inj h)
  rw [if_pos hpos] at hplace
  cases hplace

lemma resume_idle (hresult : ¬ result < 0) (hidle : ¬ (0 < result ∧ isset = true)) :
    Task.resume ⟨.select, ctx, flags, resource⟩ (.selected result isset) =
      some ⟨.select, ctx, flags, resource⟩ := by
  rw [resume_select]
  by_cases hpos : 0 < result
  · have hisset : ¬ isset = true := fun h => hidle ⟨hpos, h⟩
    rw [if_pos hpos, if_neg hisset]
  · rw [if_neg hpos, if_neg hresult]

lemma resume_failed (hresult : result < 0) :
    Task.resume ⟨.select, ctx, flags, resource⟩ (.selected result isset) =
      some ⟨.coapFreeContext, ctx, flags, resource⟩ := by
  have hpos : ¬ 0 < result := fun hpos => Int32.lt_asymm hpos hresult
  rw [resume_select, if_neg hpos, if_pos hresult]

end

lemma begun_step {t t' : Task} {ret : Return} {rest : History} (h : Begun t rest)
    (hresume : t.resume ret = some t') :
    Begun t' (rest ++ [(t.call, ret)]) ∨
      Round (rest ++ [(t.call, ret)]) ∧ t'.place = .wifiWaitActive := by
  cases resumes_of_resume hresume with
  | waited =>
    obtain rfl : rest = [] := h
    exact Or.inl rfl
  | noContext =>
    obtain rfl : rest = [(.wifiWaitActive, .void)] := h
    exact Or.inr ⟨.noContext, rfl⟩
  | newContext c =>
    obtain rfl : rest = [(.wifiWaitActive, .void)] := h
    exact Or.inl ⟨c, rfl, rfl⟩
  | gotFlags | setFlags | resourceInit | registeredGet | registeredPost =>
    obtain ⟨c, hctx, rfl⟩ := h
    cases hctx
    exact Or.inl ⟨c, rfl, rfl⟩
  | noResource =>
    obtain ⟨c, hctx, rfl⟩ := h
    cases hctx
    exact Or.inl ⟨c, rfl, Or.inl ⟨rfl, rfl⟩⟩
  | addedResource r =>
    obtain ⟨c, hctx, rfl⟩ := h
    cases hctx
    exact Or.inl ⟨c, r, [], rfl, rfl, .nil, rfl⟩
  | readable hresult =>
    obtain ⟨c, r, polls, hctx, hresource, hpolls, rfl⟩ := h
    cases hctx
    exact Or.inl ⟨c, r, polls, _, rfl, hresource, hpolls, hresult, rfl⟩
  | again hresult =>
    obtain ⟨c, r, polls, hctx, hresource, hpolls, rfl⟩ := h
    cases hctx
    refine Or.inl ⟨c, r, _, rfl, hresource, hpolls.idle hresult (idle_of_again hresume), ?_⟩
    rw [List.append_assoc]
    rfl
  | failed hresult =>
    obtain ⟨c, r, polls, hctx, hresource, hpolls, rfl⟩ := h
    cases hctx
    exact Or.inl ⟨c, rfl, Or.inr ⟨r, polls, _, _, hresource, hpolls, hresult, rfl⟩⟩
  | read =>
    obtain ⟨c, r, polls, result, hctx, hresource, hpolls, hresult, rfl⟩ := h
    cases hctx
    refine Or.inl ⟨c, r, _, rfl, hresource, hpolls.read hresult, ?_⟩
    simp only [List.append_assoc]
    rfl
  | freedContext =>
    obtain ⟨c, hctx, ⟨hresource, rfl⟩ | ⟨r, polls, result, isset, hresource, hpolls, hresult,
      rfl⟩⟩ := h
    · cases hctx
      exact Or.inr ⟨.noResource c _, rfl⟩
    · cases hctx
      refine Or.inr ⟨?_, rfl⟩
      rw [List.append_assoc]
      exact .served c _ r hpolls hresult

/-- A round that has begun can be finished, and the call that the task is in comes next. -/
lemma round_of_begun {t : Task} {rest : History} (h : Begun t rest) :
    ∃ ret more, Round (rest ++ (t.call, ret) :: more) := by
  have hfail : (-1 : Int32) < 0 := by decide
  obtain ⟨place, ctx, flags, resource⟩ := t
  cases place with
  | wifiWaitActive =>
    obtain rfl : rest = [] := h
    exact ⟨_, _, .noContext⟩
  | coapNewContext =>
    obtain rfl : rest = [(.wifiWaitActive, .void)] := h
    exact ⟨_, _, .noContext⟩
  | fcntlGetfl =>
    obtain ⟨c, hctx, rfl⟩ := h
    cases hctx
    exact ⟨_, _, .noResource c 0⟩
  | fcntlSetfl | coapResourceInit =>
    obtain ⟨c, hctx, rfl⟩ := h
    cases hctx
    exact ⟨_, _, .noResource c flags⟩
  | registerGet | registerPost | coapAddResource =>
    obtain ⟨c, hctx, rfl⟩ := h
    cases hctx
    cases resource with
    | none => exact ⟨_, _, .noResource c flags⟩
    | some r => exact ⟨_, _, @Round.served c flags r [] _ false .nil hfail⟩
  | select =>
    obtain ⟨c, r, polls, hctx, hresource, hpolls, rfl⟩ := h
    cases hctx
    exact ⟨_, _, @Round.served c flags r polls _ false hpolls hfail⟩
  | coapRead =>
    obtain ⟨c, r, polls, result, hctx, hresource, hpolls, hresult, rfl⟩ := h
    cases hctx
    have hround := @Round.served c flags r _ (-1) false (hpolls.read hresult) hfail
    refine ⟨.void, [(.select (some c), .selected (-1) false), (.coapFreeContext (some c), .void)],
      ?_⟩
    simpa only [Task.call, List.append_assoc, List.cons_append, List.nil_append] using hround
  | coapFreeContext =>
    obtain ⟨c, hctx, ⟨hresource, rfl⟩ | ⟨r, polls, result, isset, hresource, hpolls, hresult,
      rfl⟩⟩ := h
    · cases hctx
      exact ⟨_, _, .noResource c flags⟩
    · cases hctx
      have hround := @Round.served c flags r polls result isset hpolls hresult
      refine ⟨.void, [], ?_⟩
      simpa only [Task.call, List.append_assoc, List.cons_append, List.nil_append] using hround

def InRounds (s : State) : Prop :=
  ∃ (rounds : List History) (rest : History), s.history = rounds.flatten ++ rest ∧
    (∀ round ∈ rounds, Round round) ∧ Begun s.task rest

lemma begun_start : Begun service.start.task [] := rfl

lemma inRounds_run {rets : List Return} {s : State} (h : service.run rets = some s) :
    InRounds s := by
  refine Machine.invariant (I := InRounds) ⟨[], [], rfl, by simp, begun_start⟩ ?_ h
  rintro s ret s' ⟨rounds, rest, hhistory, hrounds, hbegun⟩ hstep
  have hstep : s.step ret = some s' := hstep
  have hhistory' := (resumes_of_step hstep).2.2
  unfold State.step at hstep
  split at hstep
  · obtain ⟨t, hresume, rfl⟩ := Option.map_eq_some_iff.mp hstep
    rcases begun_step hbegun hresume with hnext | ⟨hround, hplace⟩
    · refine ⟨rounds, _, ?_, hrounds, hnext⟩
      rw [hhistory', hhistory, List.append_assoc]
      rfl
    · -- one more round is whole
      refine ⟨rounds ++ [rest ++ [(s.task.call, ret)]], [], ?_, ?_, ?_⟩
      · rw [hhistory', hhistory, List.flatten_append, List.flatten_singleton, List.append_nil,
          List.append_assoc]
        rfl
      · intro round hmem
        rcases List.mem_append.mp hmem with hmem | hmem
        · exact hrounds round hmem
        · rw [List.mem_singleton.mp hmem]
          exact hround
      · show Begun t []
        unfold Begun
        rw [hplace]
  · cases hstep

/-! ### The task can do every round -/

def Does (t : Task) (h more : History) (t' : Task) : Prop :=
  service.runFrom ⟨t, h⟩ (more.map Prod.snd) = some ⟨t', h ++ more⟩

namespace Does

lemma nil (t : Task) (h : History) : Does t h [] t := by
  unfold Does
  rw [List.map_nil, Machine.runFrom_nil, List.append_nil]

lemma cons {t t' t'' : Task} {h more : History} {call : Call} {ret : Return}
    (hcall : t.call = call) (hmay : May h call ret) (hresume : t.resume ret = some t')
    (hmore : Does t' (h ++ [(call, ret)]) more t'') : Does t h ((call, ret) :: more) t'' := by
  subst hcall
  have hstep : service.step ⟨t, h⟩ ret = some ⟨t', h ++ [(t.call, ret)]⟩ := by
    have hunfold : service.step ⟨t, h⟩ ret = if May h t.call ret then
        (t.resume ret).map fun u => (⟨u, h ++ [(t.call, ret)]⟩ : State) else none := rfl
    rw [hunfold, if_pos hmay, hresume, Option.map_some]
  unfold Does at hmore ⊢
  rw [List.map_cons, Machine.runFrom_cons, hstep, Option.bind_some, hmore, List.append_assoc]
  rfl

lemma append {t t' t'' : Task} {h more more' : History} (hmore : Does t h more t')
    (hmore' : Does t' (h ++ more) more' t'') : Does t h (more ++ more') t'' := by
  unfold Does at hmore hmore' ⊢
  rw [List.map_append, Machine.runFrom_append, hmore, Option.bind_some, hmore',
    List.append_assoc]

end Does

lemma does_setUp {ctx resource : Option ℕ} {flags : Int32} {h : History} {c : ℕ}
    (hc : c ∉ created h) {r : Option ℕ} (hr : ∀ r', r = some r' → r' ∉ initialised h)
    (flags' : Int32) :
    Does ⟨.wifiWaitActive, ctx, flags, resource⟩ h (setUp c flags' r)
      ⟨if r.isSome then .select else .coapFreeContext, some c, flags', r⟩ := by
  have hcreated : c ∉ created (h ++ [(.wifiWaitActive, .void)]) := by
    rw [created_append]
    simpa [created] using hc
  have hinit : May (h ++ [(.wifiWaitActive, .void)] ++ [(.coapNewContext, .pointer (some c))] ++
      [(.fcntlGetfl (some c), .flags flags')] ++ [(.fcntlSetfl (some c) flags', .void)])
      (.coapResourceInit "roomba/cmd" 10 0) (.pointer r) := by
    cases r with
    | none => trivial
    | some r =>
      show r ∉ initialised _
      simp only [initialised, List.filterMap_append]
      simpa [initialised] using hr r rfl
  unfold setUp
  refine Does.cons rfl trivial rfl ?_
  refine Does.cons rfl hcreated rfl ?_
  refine Does.cons rfl trivial rfl ?_
  refine Does.cons rfl trivial rfl ?_
  refine Does.cons rfl hinit rfl ?_
  refine Does.cons rfl trivial rfl ?_
  refine Does.cons rfl trivial rfl ?_
  refine Does.cons rfl trivial rfl ?_
  exact Does.nil _ _

lemma does_polls {c : ℕ} {polls : History} (h : Polls c polls) (flags : Int32)
    (resource : Option ℕ) (history : History) :
    Does ⟨.select, some c, flags, resource⟩ history polls ⟨.select, some c, flags, resource⟩ := by
  induction h with
  | nil => exact Does.nil _ _
  | idle _ hresult hidle ih =>
    exact ih.append (Does.cons rfl trivial (resume_idle hresult hidle) (Does.nil _ _))
  | @read polls result _ hresult ih =>
    have hresume : Task.resume ⟨.select, some c, flags, resource⟩ (.selected result true) =
        some ⟨.coapRead, some c, flags, resource⟩ := by
      rw [resume_select, if_pos hresult, if_pos rfl]
    exact ih.append (Does.cons rfl trivial hresume (Does.cons rfl trivial rfl (Does.nil _ _)))

/-- From the wait on, the task does any round with a context and a resource that are new. -/
lemma does_round {round : History} (hround : Round round) {t : Task} {h : History}
    (ht : t.place = .wifiWaitActive) (hc : ∀ c ∈ created round, c ∉ created h)
    (hr : ∀ r ∈ initialised round, r ∉ initialised h) :
    ∃ t' : Task, t'.place = .wifiWaitActive ∧ Does t h round t' := by
  obtain ⟨place, ctx, flags, resource⟩ := t
  obtain rfl : place = .wifiWaitActive := ht
  cases hround with
  | noContext =>
    exact ⟨⟨.wifiWaitActive, none, flags, resource⟩, rfl,
      Does.cons rfl trivial rfl (Does.cons rfl trivial rfl (Does.nil _ _))⟩
  | noResource c flags' =>
    have hsetUp : Does ⟨.wifiWaitActive, ctx, flags, resource⟩ h (setUp c flags' none)
        ⟨.coapFreeContext, some c, flags', none⟩ :=
      does_setUp (hc c (by simp [created, setUp])) (fun _ hnone => by cases hnone) flags'
    exact ⟨⟨.wifiWaitActive, some c, flags', none⟩, rfl,
      hsetUp.append (Does.cons rfl trivial rfl (Does.nil _ _))⟩
  | @served c flags' r polls result isset hpolls hresult =>
    have hsetUp : Does ⟨.wifiWaitActive, ctx, flags, resource⟩ h (setUp c flags' (some r))
        ⟨.select, some c, flags', some r⟩ :=
      does_setUp (hc c (by simp [created, setUp])) (fun r' hsome => by
        cases hsome
        exact hr r (by simp [initialised, setUp])) flags'
    have hfree (served : History) : Does ⟨.select, some c, flags', some r⟩ served
        [(.select (some c), .selected result isset), (.coapFreeContext (some c), .void)]
        ⟨.wifiWaitActive, some c, flags', some r⟩ :=
      Does.cons rfl trivial (resume_failed hresult) (Does.cons rfl trivial rfl (Does.nil _ _))
    have hserved := hsetUp.append (does_polls hpolls flags' (some r) _)
    exact ⟨⟨.wifiWaitActive, some c, flags', some r⟩, rfl,
      hserved.append (hfree _)⟩

structure Fresh (h : History) : Prop where
  contexts : (created h).Nodup
  resources : (initialised h).Nodup

lemma does_rounds {rounds : List History} (hrounds : ∀ round ∈ rounds, Round round) {t : Task}
    {h : History} (ht : t.place = .wifiWaitActive) (hfresh : Fresh (h ++ rounds.flatten)) :
    ∃ t' : Task, t'.place = .wifiWaitActive ∧ Does t h rounds.flatten t' := by
  induction rounds generalizing t h with
  | nil => exact ⟨t, ht, Does.nil t h⟩
  | cons round rounds ih =>
    rw [List.flatten_cons] at hfresh ⊢
    have hcontexts := hfresh.contexts
    have hresources := hfresh.resources
    rw [created_append, created_append, List.nodup_append] at hcontexts
    rw [initialised, List.filterMap_append, List.filterMap_append, List.nodup_append]
      at hresources
    obtain ⟨t', ht', hdoes⟩ := does_round (hrounds round (by simp)) ht
      (fun c hc hold => hcontexts.2.2 c hold c (List.mem_append_left _ hc) rfl)
      (fun r hr hold => hresources.2.2 r hold r (List.mem_append_left _ hr) rfl)
    rw [← List.append_assoc] at hfresh
    obtain ⟨t'', ht'', hmore⟩ := ih (fun x hx => hrounds x (by simp [hx])) ht' hfresh
    exact ⟨t'', ht'', hdoes.append hmore⟩

/-- **The task goes round after round**, whatever its calls return: what it has done is whole rounds
and the beginning of one more, in which the call it is in comes next. And it can do any rounds, as
long as their contexts and resources are new. -/
theorem goes_round : (∀ rets s, service.run rets = some s →
      ∃ (rounds : List History) (rest : History) (ret : Return) (more : History),
        s.history = rounds.flatten ++ rest ∧ (∀ round ∈ rounds, Round round) ∧
          Round (rest ++ (s.call, ret) :: more)) ∧
    ∀ rounds : List History, (∀ round ∈ rounds, Round round) → Fresh rounds.flatten →
      ∃ s, service.run (rounds.flatten.map Prod.snd) = some s ∧ s.history = rounds.flatten ∧
        s.call = .wifiWaitActive := by
  constructor
  · intro rets s h
    obtain ⟨rounds, rest, hhistory, hrounds, hbegun⟩ := inRounds_run h
    obtain ⟨ret, more, hround⟩ := round_of_begun hbegun
    exact ⟨rounds, rest, ret, more, hhistory, hrounds, hround⟩
  · intro rounds hrounds hfresh
    obtain ⟨t, ht, hdoes⟩ := does_rounds hrounds (t := .start) (h := []) rfl hfresh
    refine ⟨_, hdoes, rfl, ?_⟩
    obtain ⟨place, ctx, flags, resource⟩ := t
    obtain rfl : place = .wifiWaitActive := ht
    rfl

end RoombaBrain.TaskRounds
