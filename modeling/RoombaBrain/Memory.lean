import Mathlib.Algebra.Group.Nat.Defs
import Mathlib.Data.List.Basic
import Mathlib.Tactic.Common

/-!
Memories of bytes.

A number is stored as its bytes, the lowest one first. What was stored is loaded again, and nothing
that lies apart from a store is changed by it.
-/

namespace RoombaBrain.Memory

abbrev Mem := ℕ → UInt8

def load (mem : Mem) (a : ℕ) : ℕ → ℕ
  | 0 => 0
  | n + 1 => (mem a).toNat + 256 * load mem (a + 1) n

def store (mem : Mem) (a n v : ℕ) : Mem := fun x =>
  if a ≤ x ∧ x < a + n then (v / 256 ^ (x - a)).toUInt8 else mem x

def zero (mem : Mem) (a n : ℕ) : Mem := fun x => if a ≤ x ∧ x < a + n then 0 else mem x

def Agree (a n : ℕ) (mem mem' : Mem) : Prop := ∀ x, a ≤ x → x < a + n → mem' x = mem x

/-- All that was changed lies in `n` bytes. -/
def Within (a n : ℕ) (mem mem' : Mem) : Prop := ∀ x, x < a ∨ a + n ≤ x → mem' x = mem x

def Apart (a n b k : ℕ) : Prop := a + n ≤ b ∨ b + k ≤ a

instance (a n b k : ℕ) : Decidable (Apart a n b k) := by
  unfold Apart
  infer_instance

section
variable {a b k n : ℕ} {mem mem' mem'' : Mem}

lemma Apart.symm (h : Apart a n b k) : Apart b k a n := Or.symm h

lemma Agree.mono (h : Agree a n mem mem') (hb : a ≤ b) (hk : b + k ≤ a + n) :
    Agree b k mem mem' := fun x hx hx' => h x (by omega) (by omega)

lemma Within.refl (a n : ℕ) (mem : Mem) : Within a n mem mem := fun _ _ => rfl

lemma Within.trans (h : Within a n mem mem') (h' : Within a n mem' mem'') :
    Within a n mem mem'' := fun x hx => (h' x hx).trans (h x hx)

lemma Within.mono (h : Within b k mem mem') (hb : a ≤ b) (hk : b + k ≤ a + n) :
    Within a n mem mem' := fun x hx => h x (by omega)

lemma Within.agree (h : Within a n mem mem') (hapart : Apart a n b k) : Agree b k mem mem' := by
  intro x hx hx'
  apply h
  unfold Apart at hapart
  omega

lemma Agree.load_eq (h : Agree a n mem mem') : load mem' a n = load mem a n := by
  induction n generalizing a with
  | zero => rfl
  | succ n ih =>
    have hrest : Agree (a + 1) n mem mem' := h.mono (by omega) (by omega)
    unfold load
    rw [h a (by omega) (by omega), ih hrest]

/-- The number in bytes that are all zero is zero, and only that. -/
lemma load_eq_zero_iff : load mem a n = 0 ↔ ∀ i < n, mem (a + i) = 0 := by
  induction n generalizing a with
  | zero => simp [load]
  | succ n ih =>
    unfold load
    rw [Nat.add_eq_zero_iff, Nat.mul_eq_zero, ih, Nat.forall_lt_succ_left]
    have hbyte : (mem a).toNat = 0 ↔ mem a = 0 := UInt8.toNat_inj (b := 0)
    simp [hbyte, Nat.add_assoc, Nat.add_comm 1]

lemma load_eq_zero (hk : k ≤ n) (h : load mem a n = 0) : load mem a k = 0 :=
  load_eq_zero_iff.mpr fun i hi => load_eq_zero_iff.mp h i (by omega)

/-! ### Stores -/

lemma store_within (mem : Mem) (a n v : ℕ) : Within a n mem (store mem a n v) := by
  intro x hx
  unfold store
  rw [if_neg (by omega)]

lemma zero_within (mem : Mem) (a n : ℕ) : Within a n mem (zero mem a n) := by
  intro x hx
  unfold zero
  rw [if_neg (by omega)]

lemma load_store {v : ℕ} (hv : v < 256 ^ n) : load (store mem a n v) a n = v := by
  induction n generalizing a v with
  | zero =>
    unfold load
    omega
  | succ n ih =>
    have hrest : Agree (a + 1) n (store mem (a + 1) n (v / 256)) (store mem a (n + 1) v) := by
      intro x hx hx'
      have hpow : 256 ^ (x - a) = 256 * 256 ^ (x - (a + 1)) := by
        rw [← Nat.pow_succ']
        congr 1
        omega
      unfold store
      rw [if_pos (by omega), if_pos (by omega), hpow, Nat.div_div_eq_div_mul]
    have hlow : store mem a (n + 1) v a = v.toUInt8 := by
      unfold store
      rw [if_pos (by omega), Nat.sub_self, Nat.pow_zero, Nat.div_one]
    have hhigh : v / 256 < 256 ^ n := by
      rw [Nat.pow_succ] at hv
      omega
    unfold load
    rw [hlow, hrest.load_eq, ih hhigh]
    simp only [Nat.toUInt8, UInt8.toNat_ofNat']
    omega

lemma load_zero (hb : a ≤ b) (hk : b + k ≤ a + n) : load (zero mem a n) b k = 0 := by
  induction k generalizing b with
  | zero => rfl
  | succ k ih =>
    have hbyte : zero mem a n b = 0 := by
      unfold zero
      rw [if_pos (by omega)]
    unfold load
    rw [hbyte, ih (by omega) (by omega)]
    rfl

end

end RoombaBrain.Memory
