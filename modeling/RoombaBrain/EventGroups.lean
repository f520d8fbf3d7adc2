import Mathlib.Logic.Basic

/-!
Event groups.

A group has bits that tasks set and clear, and that a task can wait for. A task that finds its
bits set does not wait; setting bits wakes the task when they complete those it waits for. At
most one task waits for a group, for as long as it takes.
-/

namespace RoombaBrain.EventGroups

structure Wait where
  bitsToWaitFor : UInt32
  clearOnExit : Bool
  waitForAllBits : Bool

def Wait.Met (wait : Wait) (bits : UInt32) : Prop :=
  if wait.waitForAllBits then bits &&& wait.bitsToWaitFor = wait.bitsToWaitFor
  else bits &&& wait.bitsToWaitFor ≠ 0

instance (wait : Wait) (bits : UInt32) : Decidable (wait.Met bits) := by
  unfold Wait.Met
  infer_instance

/-! ### Bits -/

lemma set_and_self (b m : UInt32) : (b ||| m) &&& m = m := by
  rw [← UInt32.toBitVec_inj]
  ext i hi
  simp only [UInt32.toBitVec_and, UInt32.toBitVec_or, BitVec.getElem_and, BitVec.getElem_or]
  cases b.toBitVec[i] <;> cases m.toBitVec[i] <;> rfl

lemma and_of_set {b w : UInt32} (h : b &&& w = w) (m : UInt32) : (b ||| m) &&& w = w := by
  rw [← h, UInt32.and_comm b, ← UInt32.toBitVec_inj]
  ext i hi
  simp only [UInt32.toBitVec_and, UInt32.toBitVec_or, BitVec.getElem_and, BitVec.getElem_or]
  cases b.toBitVec[i] <;> cases m.toBitVec[i] <;> cases w.toBitVec[i] <;> rfl

lemma clear_and_self (b m : UInt32) : (b &&& ~~~m) &&& m = 0 := by
  rw [← UInt32.toBitVec_inj]
  ext i hi
  simp

lemma Wait.met_of_clear {wait : Wait} {b m : UInt32} (h : wait.Met (b &&& ~~~m)) :
    wait.Met b := by
  have hcomm : b &&& ~~~m &&& wait.bitsToWaitFor = ~~~m &&& (b &&& wait.bitsToWaitFor) := by
    rw [UInt32.and_comm b, UInt32.and_assoc]
  unfold Wait.Met at h ⊢
  rw [hcomm] at h
  by_cases hall : wait.waitForAllBits = true
  · rw [if_pos hall] at h ⊢
    calc b &&& wait.bitsToWaitFor
        = b &&& (~~~m &&& (b &&& wait.bitsToWaitFor)) := by rw [h]
      _ = ~~~m &&& (b &&& wait.bitsToWaitFor) := by
          rw [← UInt32.and_assoc, UInt32.and_comm b, UInt32.and_assoc, ← UInt32.and_assoc b,
            UInt32.and_self]
      _ = wait.bitsToWaitFor := h
  · rw [if_neg hall] at h ⊢
    intro hzero
    rw [hzero, UInt32.and_zero] at h
    exact h rfl

/-! ### The functions -/

/-- The functions of event groups, with what there is to see of a group: its bits, and what the
task waits for that is blocked on it. -/
structure Api (G : Type) where
  bits : G → UInt32
  waiting : G → Option Wait
  xEventGroupCreate : G
  xEventGroupSetBits : G → UInt32 → G
  xEventGroupClearBits : G → UInt32 → G
  /-- by a task that is not blocked -/
  xEventGroupWaitBits : G → Wait → G

variable {G : Type} {api : Api G}

/-- The task that may be blocked does not clear bits when it is woken. -/
def Api.Keeps (api : Api G) (g : G) : Prop :=
  ∀ wait, api.waiting g = some wait → wait.clearOnExit = false

/-- What is documented of the functions, where no task clears bits when it is woken. -/
structure Api.Documented (api : Api G) : Prop where
  create_bits : api.bits api.xEventGroupCreate = 0
  create_waiting : api.waiting api.xEventGroupCreate = none
  set_bits : ∀ g m, api.Keeps g → api.bits (api.xEventGroupSetBits g m) = api.bits g ||| m
  set_waiting : ∀ g m wait, api.waiting (api.xEventGroupSetBits g m) = some wait ↔
    api.waiting g = some wait ∧ ¬ wait.Met (api.bits g ||| m)
  clear_bits : ∀ g m, api.bits (api.xEventGroupClearBits g m) = api.bits g &&& ~~~m
  clear_waiting : ∀ g m, api.waiting (api.xEventGroupClearBits g m) = api.waiting g
  wait_bits : ∀ g wait, api.waiting g = none → wait.clearOnExit = false →
    api.bits (api.xEventGroupWaitBits g wait) = api.bits g
  wait_waiting : ∀ g wait wait', api.waiting g = none →
    (api.waiting (api.xEventGroupWaitBits g wait) = some wait' ↔
      wait' = wait ∧ ¬ wait.Met (api.bits g))

/-! ### The task -/

def Api.Settled (api : Api G) (g : G) : Prop :=
  ∀ wait, api.waiting g = some wait → ¬ wait.Met (api.bits g)

namespace Api.Documented

variable (hapi : api.Documented) {g : G}

include hapi

lemma settled_create : api.Settled api.xEventGroupCreate := by
  intro wait hwait
  rw [hapi.create_waiting] at hwait
  cases hwait

lemma settled_setBits (hkeeps : api.Keeps g) (m : UInt32) :
    api.Settled (api.xEventGroupSetBits g m) := by
  intro wait hwait
  rw [hapi.set_bits g m hkeeps]
  exact ((hapi.set_waiting g m wait).mp hwait).2

lemma settled_clearBits (hg : api.Settled g) (m : UInt32) :
    api.Settled (api.xEventGroupClearBits g m) := by
  intro wait hwait hmet
  rw [hapi.clear_waiting] at hwait
  rw [hapi.clear_bits] at hmet
  exact hg wait hwait (Wait.met_of_clear hmet)

lemma settled_waitBits (hfree : api.waiting g = none) {wait : Wait}
    (hkeeps : wait.clearOnExit = false) : api.Settled (api.xEventGroupWaitBits g wait) := by
  intro wait' hwait
  obtain ⟨rfl, hmet⟩ := (hapi.wait_waiting g wait wait' hfree).mp hwait
  rw [hapi.wait_bits g wait' hfree hkeeps]
  exact hmet

end Api.Documented

/-! ### Event groups as they are documented -/

structure EventGroup where
  bits : UInt32
  waiting : Option Wait

def EventGroup.wake (group : EventGroup) : EventGroup :=
  match group.waiting with
  | none => group
  | some wait =>
    if wait.Met group.bits then
      { bits := if wait.clearOnExit then group.bits &&& ~~~wait.bitsToWaitFor else group.bits
        waiting := none }
    else group

def eventGroups : Api EventGroup where
  bits := EventGroup.bits
  waiting := EventGroup.waiting
  xEventGroupCreate := ⟨0, none⟩
  xEventGroupSetBits group bits := { group with bits := group.bits ||| bits }.wake
  xEventGroupClearBits group bits := { group with bits := group.bits &&& ~~~bits }
  xEventGroupWaitBits group wait := { group with waiting := some wait }.wake

lemma waiting_wake (group : EventGroup) (wait : Wait) :
    group.wake.waiting = some wait ↔ group.waiting = some wait ∧ ¬ wait.Met group.bits := by
  unfold EventGroup.wake
  split
  · next hnone => simp [hnone]
  · next wait' hsome =>
    split
    · next hmet =>
      refine iff_of_false (fun h => by cases h) fun h => h.2 ?_
      rw [hsome] at h
      exact Option.some.inj h.1 ▸ hmet
    · next hmet =>
      refine ⟨fun h => ⟨h, ?_⟩, fun h => h.1⟩
      rw [hsome] at h
      exact Option.some.inj h ▸ hmet

lemma bits_wake (group : EventGroup) (h : eventGroups.Keeps group) :
    group.wake.bits = group.bits := by
  unfold EventGroup.wake
  split
  · rfl
  · next wait hsome =>
    split
    · simp [h wait hsome]
    · rfl

/-- They do what is documented. -/
theorem documented_eventGroups : eventGroups.Documented where
  create_bits := rfl
  create_waiting := rfl
  set_bits group m hkeeps := bits_wake { group with bits := group.bits ||| m } hkeeps
  set_waiting group m wait := waiting_wake { group with bits := group.bits ||| m } wait
  clear_bits _ _ := rfl
  clear_waiting _ _ := rfl
  wait_bits group wait _ hkeeps := bits_wake { group with waiting := some wait } fun _ h =>
    Option.some.inj h ▸ hkeeps
  wait_waiting group wait wait' _ := by
    have hwoken := waiting_wake { group with waiting := some wait } wait'
    refine hwoken.trans ⟨fun h => ?_, fun h => ?_⟩
    · cases h.1
      exact ⟨rfl, h.2⟩
    · cases h.1
      exact ⟨rfl, h.2⟩

end RoombaBrain.EventGroups
