import RoombaBrain.Runs

/-!
Programs by the calls they make.

A program makes one call after the other, each one chosen by what the calls before it returned,
until it is done or aborted. A contract says what must hold of the calls made before a call, and
before an abort; the weakest precondition of a program is what the calls before it must satisfy
for it to keep the contract and to end as it should.
-/

namespace RoombaBrain.Programs

open RoombaBrain.Runs

/-- A program that makes calls `C`, which return an `R`, and ends with an `α`. -/
inductive Prog (C R α : Type)
  | done (a : α)
  | aborted
  | call (c : C) (next : R → Prog C R α)

variable {C R α β : Type}

namespace Prog

def bind : Prog C R α → (α → Prog C R β) → Prog C R β
  | .done a, f => f a
  | .aborted, _ => .aborted
  | .call c next, f => .call c fun r => (next r).bind f

instance : Monad (Prog C R) where
  pure := .done
  bind := bind

def make (c : C) : Prog C R R := .call c .done

def current : Prog C R α → Option C
  | .call c _ => some c
  | .done _ | .aborted => none

def isAborted : Prog C R α → Bool
  | .aborted => true
  | .done _ | .call _ _ => false

@[simp] lemma pure_eq (a : α) : (pure a : Prog C R α) = .done a := rfl
@[simp] lemma done_bind (a : α) (f : α → Prog C R β) : Prog.done a >>= f = f a := rfl
@[simp] lemma aborted_bind (f : α → Prog C R β) :
    (Prog.aborted : Prog C R α) >>= f = .aborted := rfl
@[simp] lemma call_bind (c : C) (next : R → Prog C R α) (f : α → Prog C R β) :
    Prog.call c next >>= f = .call c fun r => next r >>= f := rfl

end Prog

abbrev History (C R : Type) := List (C × R)

/-! ### Runs -/

/-- The program on what its calls return: what is left of it, and the calls that have returned. A
call returns what fits it. -/
def Prog.machine (fits : C → R → Bool) (p : Prog C R α) :
    Machine (Prog C R α × History C R) R where
  start := (p, [])
  step s r :=
    match s.1 with
    | .call c next => if fits c r then some (next r, s.2 ++ [(c, r)]) else none
    | .done _ | .aborted => none

variable {fits : C → R → Bool}

lemma exists_call_of_step {p : Prog C R α} {s t : Prog C R α × History C R} {r : R}
    (h : (p.machine fits).step s r = some t) :
    ∃ c next, s.1 = .call c next ∧ fits c r = true ∧ t = (next r, s.2 ++ [(c, r)]) := by
  obtain ⟨q, history⟩ := s
  cases q with
  | done | aborted => cases h
  | call c next =>
    simp only [Prog.machine] at h
    split at h
    · next hfits =>
      cases h
      exact ⟨c, next, rfl, hfits, rfl⟩
    · cases h

/-! ### Contracts -/

structure Contract (C R : Type) where
  before : History C R → C → Prop
  abort : History C R → Prop

variable {S : Contract C R}

/-- The program keeps the contract after these calls, and ends with `Q`. -/
def Prog.wp (S : Contract C R) : Prog C R α → (α → History C R → Prop) → History C R → Prop
  | .done a, Q, h => Q a h
  | .aborted, _, h => S.abort h
  | .call c next, Q, h => S.before h c ∧ ∀ r, (next r).wp S Q (h ++ [(c, r)])

lemma wp_bind (p : Prog C R α) (f : α → Prog C R β) (Q : β → History C R → Prop)
    (h : History C R) :
    (p >>= f).wp S Q h ↔ p.wp S (fun a h => (f a).wp S Q h) h := by
  induction p generalizing h with
  | done a => exact Iff.rfl
  | aborted => exact Iff.rfl
  | call c next ih =>
    simp only [Prog.call_bind, Prog.wp]
    exact and_congr_right fun _ => forall_congr' fun r => ih r (h ++ [(c, r)])

lemma Prog.wp.mono {p : Prog C R α} {Q Q' : α → History C R → Prop} {h : History C R}
    (hp : p.wp S Q h) (hQ : ∀ a h, Q a h → Q' a h) : p.wp S Q' h := by
  induction p generalizing h with
  | done a => exact hQ a h hp
  | aborted => exact hp
  | call c next ih => exact ⟨hp.1, fun r => ih r (hp.2 r)⟩

/-- **The contract is kept in every run**, whatever the calls return. -/
theorem wp_run {p : Prog C R α} {Q : α → History C R → Prop} (hp : p.wp S Q []) {rets : List R}
    {s : Prog C R α × History C R} (h : (p.machine fits).run rets = some s) : s.1.wp S Q s.2 := by
  refine Machine.invariant (M := p.machine fits) (I := fun s => s.1.wp S Q s.2) hp ?_ h
  intro s r t hs hstep
  obtain ⟨c, next, hcall, -, rfl⟩ := exists_call_of_step hstep
  rw [hcall] at hs
  exact hs.2 r

end RoombaBrain.Programs
