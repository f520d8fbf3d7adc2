import Mathlib.Data.List.Basic
import Mathlib.Tactic.Common

/-!
Reading a bounded window of a memory.

A window is a read position in a memory and the number of bytes that may still be taken
from there. A reader is local when the bytes of its window decide what it does: either it
takes some of the first ones, whatever comes after them, or it fails, whatever memory lies
behind the window. Everything built from local readers by sequencing is local.
-/

namespace RoombaBrain.ByteReader

/-- The memory from the read position on, and the number of bytes that may be read. -/
structure Window where
  state : List UInt8
  bytesLeft : ℕ

/-- The window that is exactly `w`, in a memory that goes on with `m`. -/
def on (w m : List UInt8) : Window := ⟨w ++ m, w.length⟩

@[simp] lemma on_state (w m : List UInt8) : (on w m).state = w ++ m := rfl
@[simp] lemma on_bytesLeft (w m : List UInt8) : (on w m).bytesLeft = w.length := rfl

def Window.bytes (s : Window) : List UInt8 := s.state.take s.bytesLeft

@[simp] lemma bytes_on (w m : List UInt8) : (on w m).bytes = w := by
  simp [Window.bytes]

/-- A reader takes bytes from a window and returns a value, or fails with a text. -/
def Reader (α : Type) := Window → Except String (α × Window)

variable {α β : Type}

instance : Monad Reader where
  pure a := fun s => .ok (a, s)
  bind f g := fun s =>
    match f s with
    | .error e => .error e
    | .ok (a, t) => g a t

def fail (e : String) : Reader α := fun _ => .error e

@[simp] lemma pure_eq (a : α) (s : Window) : (pure a : Reader α) s = .ok (a, s) := rfl

@[simp] lemma fail_eq (e : String) (s : Window) : (fail e : Reader α) s = .error e := rfl

lemma bind_ok {f : Reader α} {g : α → Reader β} {s t : Window} {a : α} (h : f s = .ok (a, t)) :
    (f >>= g) s = g a t := by
  show (match f s with | .error e => _ | .ok (a, t) => _) = _
  rw [h]

lemma bind_error {f : Reader α} {g : α → Reader β} {s : Window} {e : String}
    (h : f s = .error e) : (f >>= g) s = .error e := by
  show (match f s with | .error e => _ | .ok (a, t) => _) = _
  rw [h]

/-! ### Local readers -/

/-- The reader takes exactly the bytes `c` and returns `a`, whatever follows them. -/
def Reads (f : Reader α) (c : List UInt8) (a : α) : Prop :=
  ∀ r m, f (on (c ++ r) m) = .ok (a, on r m)

/-- The reader fails on the window `w`, whatever memory lies behind it. -/
def Fails (f : Reader α) (w : List UInt8) : Prop :=
  ∃ e, ∀ m, f (on w m) = .error e

/-- The bytes of the window `w` decide what the reader does on it. -/
def LocalAt (f : Reader α) (w : List UInt8) : Prop :=
  (∃ c r a, w = c ++ r ∧ Reads f c a) ∨ Fails f w

def Local (f : Reader α) : Prop := ∀ w, LocalAt f w

lemma Reads.whole {f : Reader α} {c : List UInt8} {a : α} (h : Reads f c a) (m : List UInt8) :
    f (on c m) = .ok (a, on [] m) := by
  simpa using h [] m

lemma Reads.pure (a : α) : Reads (pure a : Reader α) [] a := fun _ _ => rfl

lemma Reads.bind {f : Reader α} {g : α → Reader β} {c d : List UInt8} {a : α} {b : β}
    (hf : Reads f c a) (hg : Reads (g a) d b) : Reads (f >>= g) (c ++ d) b := by
  intro r m
  rw [List.append_assoc, bind_ok (hf (d ++ r) m), hg r m]

lemma Reads.cons {f g : Reader α} {b : UInt8} {c : List UInt8} {a : α}
    (h : ∀ w m, f (on (b :: w) m) = g (on w m)) (hg : Reads g c a) : Reads f (b :: c) a := by
  intro r m
  rw [List.cons_append, h, hg r m]

lemma LocalAt.cons {f g : Reader α} {b : UInt8} {w : List UInt8}
    (h : ∀ w m, f (on (b :: w) m) = g (on w m)) (hg : LocalAt g w) : LocalAt f (b :: w) := by
  rcases hg with ⟨c, r, a, rfl, hc⟩ | ⟨e, he⟩
  · exact Or.inl ⟨b :: c, r, a, rfl, hc.cons h⟩
  · exact Or.inr ⟨e, fun m => by rw [h, he]⟩

lemma Local.pure (a : α) : Local (pure a : Reader α) :=
  fun w => Or.inl ⟨[], w, a, rfl, Reads.pure a⟩

lemma Local.fail (e : String) : Local (fail e : Reader α) :=
  fun _ => Or.inr ⟨e, fun _ => rfl⟩

lemma Local.bind {f : Reader α} {g : α → Reader β} (hf : Local f) (hg : ∀ a, Local (g a)) :
    Local (f >>= g) := by
  intro w
  rcases hf w with ⟨c, r, a, rfl, hc⟩ | ⟨e, he⟩
  · rcases hg a r with ⟨d, r', b, rfl, hd⟩ | ⟨e, he⟩
    · exact Or.inl ⟨c ++ d, r', b, by simp, hc.bind hd⟩
    · exact Or.inr ⟨e, fun m => by rw [bind_ok (hc r m), he]⟩
  · exact Or.inr ⟨e, fun m => bind_error (he m)⟩

/-- What a local reader takes is determined by the bytes it finds. -/
lemma Reads.unique {f : Reader α} {c d r s : List UInt8} {a b : α} (hc : Reads f c a)
    (hd : Reads f d b) (h : c ++ r = d ++ s) : a = b ∧ c = d ∧ r = s := by
  have h1 := hc r []
  rw [h, hd s []] at h1
  simp only [Except.ok.injEq, Prod.mk.injEq] at h1
  have hrs : r = s := by
    have := congrArg Window.bytes h1.2
    simpa using this.symm
  subst hrs
  exact ⟨h1.1.symm, List.append_cancel_right h, rfl⟩

/-- A local reader fails on bytes that stop short of what it takes. -/
lemma Local.fails_short {f : Reader α} {t u : List UInt8} {a : α} (hf : Local f)
    (h : Reads f (t ++ u) a) (hu : u ≠ []) : Fails f t := by
  rcases hf t with ⟨c, r, b, rfl, hc⟩ | hfail
  · have := (Reads.unique hc h (r := r ++ u) (s := []) (by simp)).2.2
    simp_all
  · exact hfail

lemma Reads.not_fails {f : Reader α} {c : List UInt8} {a : α} (h : Reads f c a) (r : List UInt8) :
    ¬ Fails f (c ++ r) := by
  rintro ⟨e, he⟩
  have := he []
  rw [h r []] at this
  cases this

/-- What a sequence of local readers takes is taken by the first and then by the second. -/
lemma Reads.bind_inv {f : Reader α} {g : α → Reader β} {c : List UInt8} {b : β}
    (hf : Local f) (hg : ∀ a, Local (g a)) (h : Reads (f >>= g) c b) :
    ∃ d x a, c = d ++ x ∧ Reads f d a ∧ Reads (g a) x b := by
  have hnot : ¬ Fails (f >>= g) c := by simpa using h.not_fails []
  rcases hf c with ⟨d, t, a, rfl, hd⟩ | ⟨e, he⟩
  · rcases hg a t with ⟨x, u, b', rfl, hx⟩ | ⟨e, he⟩
    · obtain ⟨rfl, -, hu⟩ := Reads.unique (hd.bind hx) h (r := u) (s := []) (by simp)
      exact ⟨d, x, a, by simp [hu], hd, hx⟩
    · exact absurd ⟨e, fun m => by rw [bind_ok (hd t m), he]⟩ hnot
  · exact absurd ⟨e, fun m => bind_error (he m)⟩ hnot

lemma Reads.bind_pure_inv {f : Reader α} {g : α → β} {c : List UInt8} {b : β} (hf : Local f)
    (h : Reads (f >>= fun a => Pure.pure (g a)) c b) : ∃ a, b = g a ∧ Reads f c a := by
  obtain ⟨d, x, a, rfl, hd, hx⟩ := h.bind_inv hf fun a => Local.pure (g a)
  obtain ⟨rfl, rfl, -⟩ := Reads.unique hx (Reads.pure (g a)) (r := []) (s := x) (by simp)
  exact ⟨a, rfl, by simpa using hd⟩

lemma fails_of_bind_pure {f : Reader α} {g : α → β} {w : List UInt8} (hf : Local f)
    (h : Fails (f >>= fun a => Pure.pure (g a)) w) : Fails f w := by
  rcases hf w with ⟨c, r, a, rfl, hc⟩ | hw
  · have hr : Reads (f >>= fun a => Pure.pure (g a)) (c ++ []) (g a) := hc.bind (Reads.pure (g a))
    rw [List.append_nil] at hr
    exact absurd h (hr.not_fails r)
  · exact hw

/-! ### Careful readers -/

def Window.Inside (s : Window) : Prop := s.bytesLeft ≤ s.state.length

/-- The window `t` is what is left of `s` after some of its bytes were taken. -/
def Window.Rest (s t : Window) : Prop :=
  ∃ k ≤ s.bytesLeft, t = ⟨s.state.drop k, s.bytesLeft - k⟩

lemma Window.Inside.eq_on {s : Window} (h : s.Inside) :
    s = on s.bytes (s.state.drop s.bytesLeft) := by
  have hlen : s.bytes.length = s.bytesLeft := by
    rw [Window.bytes, List.length_take]
    exact Nat.min_eq_left h
  rw [on, hlen, Window.bytes, List.take_append_drop]

lemma Window.Rest.refl (s : Window) : s.Rest s := ⟨0, Nat.zero_le _, rfl⟩

lemma Window.Rest.trans {s t u : Window} (h : s.Rest t) (h' : t.Rest u) : s.Rest u := by
  obtain ⟨k, hk, rfl⟩ := h
  obtain ⟨l, hl, rfl⟩ := h'
  have hkl : k + l ≤ s.bytesLeft := by
    have hl : l ≤ s.bytesLeft - k := hl
    omega
  exact ⟨k + l, hkl, by rw [List.drop_drop, Nat.sub_sub]⟩

lemma Window.Rest.inside {s t : Window} (h : s.Rest t) (hs : s.Inside) : t.Inside := by
  obtain ⟨k, hk, rfl⟩ := h
  simp only [Window.Inside, List.length_drop] at hs ⊢
  omega

lemma Window.Rest.le {s t : Window} (h : s.Rest t) : t.bytesLeft ≤ s.bytesLeft := by
  obtain ⟨k, hk, rfl⟩ := h
  exact Nat.sub_le _ _

/-- In a window that lies in its memory the reader takes bytes of the window only, and fails with
no other texts than these. -/
structure Careful (texts : List String) (f : Reader α) : Prop where
  takes : ∀ {s t a}, s.Inside → f s = .ok (a, t) → s.Rest t
  fails : ∀ {s e}, s.Inside → f s = .error e → e ∈ texts

section
variable {texts : List String}

lemma Careful.pure (a : α) : Careful texts (Pure.pure a : Reader α) where
  takes _ h := by
    cases h
    exact .refl _
  fails _ h := by cases h

lemma Careful.fail {e : String} (he : e ∈ texts) :
    Careful texts (ByteReader.fail e : Reader α) where
  takes _ h := by cases h
  fails _ h := by
    cases h
    exact he

lemma Careful.bind {f : Reader α} {g : α → Reader β} (hf : Careful texts f)
    (hg : ∀ a, Careful texts (g a)) : Careful texts (f >>= g) where
  takes {s t b} hs h := by
    rcases hfs : f s with e | ⟨a, u⟩
    · rw [bind_error hfs] at h
      cases h
    · rw [bind_ok hfs] at h
      have hrest := hf.takes hs hfs
      exact hrest.trans ((hg a).takes (hrest.inside hs) h)
  fails {s e} hs h := by
    rcases hfs : f s with e' | ⟨a, u⟩
    · rw [bind_error hfs] at h
      cases h
      exact hf.fails hs hfs
    · rw [bind_ok hfs] at h
      exact (hg a).fails ((hf.takes hs hfs).inside hs) h

lemma Careful.of_window {f : Reader α} {g : Window → Reader α} (hg : ∀ s, Careful texts (g s))
    (h : ∀ s, f s = g s s) : Careful texts f where
  takes {s _ _} hs hf := (hg s).takes hs ((h s).symm.trans hf)
  fails {s _} hs hf := (hg s).fails hs ((h s).symm.trans hf)

end

end RoombaBrain.ByteReader
