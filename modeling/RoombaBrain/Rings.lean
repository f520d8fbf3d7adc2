import Mathlib.Tactic.Common
import Mathlib.Tactic.SplitIfs

/-!
Searching a ring.

A state goes round `n` places in a row. The search looks at the place it is in, goes on to the
next, and stops when it is back where it began. It has then seen every place once.
-/

namespace RoombaBrain.Rings

variable {σ : Type} (next : σ → σ) (place : σ → ℕ) (hit : σ → Bool)

/-- `do { if (hit) return true; next; } while (place != start); return false;` -/
def search : ℕ → ℕ → σ → Option (Bool × σ)
  | 0, _, _ => none
  | fuel + 1, start, s =>
    if hit s then some (true, s)
    else if place (next s) ≠ start then search fuel start (next s)
    else some (false, next s)

structure Ring (n : ℕ) (inv : σ → Prop) : Prop where
  inv_next : ∀ s, inv s → inv (next s)
  lt : ∀ s, inv s → place s < n
  place_next : ∀ s, inv s → place (next s) = if place s + 1 < n then place s + 1 else 0

def Seen (start p i : ℕ) : Prop := if start ≤ p then start ≤ i ∧ i < p else start ≤ i ∨ i < p

def ahead (n start p : ℕ) : ℕ := if start ≤ p then n - p + start else start - p

variable {next place hit} {n : ℕ} {inv : σ → Prop}

/-- Back at the start every place was seen, or is the last one. -/
lemma seen_all {start p i : ℕ} (hi : i < n)
    (hp : (if p + 1 < n then p + 1 else 0) = start) : Seen start p i ∨ i = p := by
  unfold Seen
  split_ifs at hp ⊢ <;> omega

lemma seen_next {start p i : ℕ} (hi : i < n) (hp : p < n)
    (h : Seen start (if p + 1 < n then p + 1 else 0) i) : Seen start p i ∨ i = p := by
  unfold Seen at h ⊢
  split_ifs at h ⊢ <;> omega

lemma ahead_next {start p fuel : ℕ} (hstart : start < n) (hp : p < n)
    (hne : (if p + 1 < n then p + 1 else 0) ≠ start) (h : ahead n start p ≤ fuel + 1) :
    ahead n start (if p + 1 < n then p + 1 else 0) ≤ fuel := by
  unfold ahead at h ⊢
  split_ifs at h hne ⊢ <;> omega

lemma ahead_pos {start p : ℕ} (hp : p < n) : 0 < ahead n start p := by
  unfold ahead
  split_ifs <;> omega

lemma Ring.search_from (hr : Ring next place n inv)
    (hhit : ∀ s t, inv s → inv t → place s = place t → hit s = hit t) {start fuel : ℕ}
    (hstart : start < n) {s : σ} (hs : inv s) (hfuel : ahead n start (place s) ≤ fuel)
    (hmiss : ∀ u, inv u → Seen start (place s) (place u) → hit u = false) :
    ∃ found t, search next place hit fuel start s = some (found, t) ∧ inv t ∧
      (found = true → hit t = true) ∧
      (found = false → place t = start ∧ ∀ u, inv u → hit u = false) := by
  induction fuel generalizing s with
  | zero => exact absurd hfuel (Nat.not_le.mpr (ahead_pos (hr.lt s hs)))
  | succ fuel ih =>
    unfold search
    by_cases hs' : hit s = true
    · rw [if_pos hs']
      exact ⟨true, s, rfl, hs, fun _ => hs', Bool.noConfusion⟩
    · have hseen : ∀ u, inv u → Seen start (place s) (place u) ∨ place u = place s →
          hit u = false := by
        rintro u hu (h | h)
        · exact hmiss u hu h
        · rw [hhit u s hu hs h]
          simpa using hs'
      have hplace := hr.place_next s hs
      rw [if_neg hs']
      by_cases hback : place (next s) = start
      · rw [if_neg (not_not_intro hback)]
        refine ⟨false, next s, rfl, hr.inv_next s hs, Bool.noConfusion,
          fun _ => ⟨hback, fun u hu => ?_⟩⟩
        exact hseen u hu (seen_all (hr.lt u hu) (hplace.symm.trans hback))
      · rw [if_pos hback]
        rw [hplace] at hback
        refine ih (hr.inv_next s hs) ?_ fun u hu h => ?_
        · rw [hplace]
          exact ahead_next hstart (hr.lt s hs) hback hfuel
        · rw [hplace] at h
          exact hseen u hu (seen_next (hr.lt u hu) (hr.lt s hs) h)

/-- **A search ends**, at a hit if there is one, and otherwise where it began. -/
theorem Ring.search_spec (hr : Ring next place n inv)
    (hhit : ∀ s t, inv s → inv t → place s = place t → hit s = hit t) {s : σ} (hs : inv s)
    {fuel : ℕ} (hfuel : n ≤ fuel) :
    ∃ found t, search next place hit fuel (place s) s = some (found, t) ∧ inv t ∧
      (found = true → hit t = true) ∧
      (found = false → place t = place s ∧ ∀ u, inv u → hit u = false) := by
  have hlt := hr.lt s hs
  refine hr.search_from hhit hlt hs ?_ fun u _ h => ?_
  · unfold ahead
    rw [if_pos (Nat.le_refl _)]
    omega
  · unfold Seen at h
    rw [if_pos (Nat.le_refl _)] at h
    omega

end RoombaBrain.Rings
