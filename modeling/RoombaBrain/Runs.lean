import Mathlib.Data.List.Induction
import Mathlib.Tactic.Common

/-!
Machines that go from state to state.

Each step is made on an input, which stands for whatever the machine does not decide itself: a
value returned to it, or who is next to act. A machine that has no step on an input ends there.
A run is the list of its inputs.
-/

namespace RoombaBrain.Runs

structure Machine (σ α : Type) where
  start : σ
  step : σ → α → Option σ

namespace Machine

variable {σ α : Type} (M : Machine σ α)

def runFrom (s : σ) (as : List α) : Option σ := as.foldlM M.step s

def run (as : List α) : Option σ := M.runFrom M.start as

@[simp] lemma runFrom_nil (s : σ) : M.runFrom s [] = some s := rfl

@[simp] lemma runFrom_cons (s : σ) (a : α) (as : List α) :
    M.runFrom s (a :: as) = (M.step s a).bind fun t => M.runFrom t as := rfl

lemma runFrom_append (s : σ) (as bs : List α) :
    M.runFrom s (as ++ bs) = (M.runFrom s as).bind fun t => M.runFrom t bs := by
  simp only [runFrom, List.foldlM_append]
  rfl

lemma run_append (as bs : List α) :
    M.run (as ++ bs) = (M.run as).bind fun t => M.runFrom t bs := M.runFrom_append M.start as bs

lemma run_concat (as : List α) (a : α) :
    M.run (as ++ [a]) = (M.run as).bind fun s => M.step s a := by
  rw [run_append]
  rcases M.run as with _ | s
  · rfl
  · rcases h : M.step s a with _ | t <;> simp [h]

variable {M}

lemma exists_of_run_concat {as : List α} {a : α} {t : σ} (h : M.run (as ++ [a]) = some t) :
    ∃ s, M.run as = some s ∧ M.step s a = some t := by
  rw [run_concat] at h
  exact Option.bind_eq_some_iff.mp h

/-- **An invariant**: what holds at the start and is kept by each step holds after every run. -/
theorem invariant {I : σ → Prop} (hstart : I M.start)
    (hstep : ∀ s a t, I s → M.step s a = some t → I t) {as : List α} {s : σ}
    (h : M.run as = some s) : I s := by
  induction as using List.reverseRecOn generalizing s with
  | nil =>
    cases h
    exact hstart
  | append_singleton as a ih =>
    obtain ⟨r, hr, hlast⟩ := exists_of_run_concat h
    exact hstep r a s (ih hr) hlast

/-- An invariant that is kept by the steps from states that a run comes to. -/
theorem invariant_of_run {I : σ → Prop} (hstart : I M.start)
    (hstep : ∀ as s a t, M.run as = some s → I s → M.step s a = some t → I t) {as : List α}
    {s : σ} (h : M.run as = some s) : I s := by
  induction as using List.reverseRecOn generalizing s with
  | nil =>
    cases h
    exact hstart
  | append_singleton as a ih =>
    obtain ⟨r, hr, hlast⟩ := exists_of_run_concat h
    exact hstep as r a s hr (ih hr) hlast

/-! ### Parts -/

variable {τ β : Type} {N : Machine τ β}

/-- The machine `N` is a part of `M`: a step of `M` leaves it as it is, starts it, or makes one of
its steps. -/
structure Part (M : Machine σ α) (N : Machine τ β) (part : σ → Option τ) : Prop where
  start : part M.start = none ∨ part M.start = some N.start
  step : ∀ s a t, M.step s a = some t → part t = part s ∨ part t = some N.start ∨
    ∃ u b v, part s = some u ∧ N.step u b = some v ∧ part t = some v

/-- **A part makes runs of its own**, however its steps are mixed with those of the rest. -/
theorem Part.run {part : σ → Option τ} (h : Part M N part) {as : List α} {s : σ}
    (hs : M.run as = some s) {u : τ} (hu : part s = some u) : ∃ bs, N.run bs = some u := by
  induction as using List.reverseRecOn generalizing s u with
  | nil =>
    cases hs
    rcases h.start with hnone | hstart
    · exact absurd (hnone.symm.trans hu) (by simp)
    · exact ⟨[], by rw [← hu, hstart]; rfl⟩
  | append_singleton as a ih =>
    obtain ⟨r, hr, hlast⟩ := exists_of_run_concat hs
    rcases h.step r a s hlast with hsame | hstart | ⟨v, b, w, hv, hstep, hw⟩
    · exact ih hr (hsame.symm.trans hu)
    · exact ⟨[], by rw [← hu, hstart]; rfl⟩
    · obtain ⟨bs, hbs⟩ := ih hr hv
      refine ⟨bs ++ [b], ?_⟩
      rw [run_concat, hbs, Option.bind_some, hstep, ← hw, hu]

/-! ### Along a run -/

def Throughout (M : Machine σ α) (as : List α) (P : σ → Prop) : Prop :=
  ∀ before s, before <+: as → M.run before = some s → P s

def EachStep (M : Machine σ α) (as : List α) (Q : σ → α → Prop) : Prop :=
  ∀ before a s, before ++ [a] <+: as → M.run before = some s → Q s a

/-- **An invariant of the runs whose steps all meet a condition.** -/
theorem throughout_of_eachStep {I : σ → Prop} {Q : σ → α → Prop} (hstart : I M.start)
    (hstep : ∀ s a t, I s → Q s a → M.step s a = some t → I t) {as : List α}
    (h : M.EachStep as Q) : M.Throughout as I := by
  intro before
  induction before using List.reverseRecOn with
  | nil =>
    intro s _ hs
    cases hs
    exact hstart
  | append_singleton before a ih =>
    intro t hprefix ht
    obtain ⟨s, hs, hlast⟩ := exists_of_run_concat ht
    have hbefore := ih s ((List.prefix_append before [a]).trans hprefix) hs
    exact hstep s a t hbefore (h before a s hprefix hs) hlast

/-! ### Termination -/

def Terminates (M : Machine σ α) : Prop := ∃ n, ∀ as s, M.run as = some s → as.length ≤ n

/-- **Termination by a measure** that falls with each step from a state of an invariant. -/
theorem terminates_of_measure {I : σ → Prop} (hstart : I M.start)
    (hstep : ∀ s a t, I s → M.step s a = some t → I t) (μ : σ → ℕ)
    (hμ : ∀ s a t, I s → M.step s a = some t → μ t < μ s) : M.Terminates := by
  refine ⟨μ M.start, fun as s h => ?_⟩
  have hspent : μ s + as.length ≤ μ M.start := by
    induction as using List.reverseRecOn generalizing s with
    | nil =>
      cases h
      exact Nat.le_refl _
    | append_singleton as a ih =>
      obtain ⟨r, hr, hlast⟩ := exists_of_run_concat h
      have hfall := hμ r a s (invariant hstart hstep hr) hlast
      have := ih r hr
      rw [List.length_append, List.length_singleton]
      omega
  omega

/-- A machine that always has a next step does not terminate. -/
lemma not_terminates [Inhabited α] (hstep : ∀ s a, ∃ t, M.step s a = some t) :
    ¬ M.Terminates := by
  rintro ⟨n, hn⟩
  have hruns : ∀ k, ∃ s, M.run (List.replicate k default) = some s := by
    intro k
    induction k with
    | zero => exact ⟨M.start, rfl⟩
    | succ k ih =>
      obtain ⟨s, hs⟩ := ih
      obtain ⟨t, ht⟩ := hstep s default
      refine ⟨t, ?_⟩
      rw [List.replicate_succ', run_concat, hs]
      exact ht
  obtain ⟨s, hs⟩ := hruns (n + 1)
  have hle := hn _ s hs
  rw [List.length_replicate] at hle
  omega

end Machine

end RoombaBrain.Runs
