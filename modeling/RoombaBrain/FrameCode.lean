import Mathlib.Data.Int.Basic
import Mathlib.Logic.Function.Basic

/-!
Frames on a serial line.

A frame is a code byte and the number of arguments that a table gives for the code. A stream of
bytes is read one frame at a time. When different commands have different codes there is at
most one way to read a stream, and streams that can be read can be put together.
-/

namespace RoombaBrain.FrameCode

/-- A table of commands: the code of each, which no other command has, and the number of its
arguments, negative where the table gives none. -/
structure Table (κ : Type) where
  code : κ → UInt8
  nargs : κ → ℤ
  code_injective : Function.Injective code

variable {κ : Type} (T : Table κ)

/-- Reading a stream frame by frame gives these commands with their arguments. -/
inductive Parses : List UInt8 → List (κ × List UInt8) → Prop
  | nil : Parses [] []
  | cons {r cs} (k : κ) (args : List UInt8) (hargs : T.nargs k = args.length)
      (hr : Parses r cs) : Parses (T.code k :: (args ++ r)) ((k, args) :: cs)

variable {T}

/-- **A stream can be read in one way only.** -/
theorem Parses.unique {w : List UInt8} {cs ds : List (κ × List UInt8)} (hc : Parses T w cs)
    (hd : Parses T w ds) : cs = ds := by
  induction hc generalizing ds with
  | nil =>
    cases hd
    rfl
  | @cons r cs k args hargs _ ih =>
    generalize hw : T.code k :: (args ++ r) = w at hd
    cases hd with
    | nil => cases hw
    | @cons r' ds k' args' hargs' hr' =>
      obtain ⟨hcode, hrest⟩ := List.cons.inj hw
      obtain rfl := T.code_injective hcode
      have hlen : args.length = args'.length := by
        rw [hargs] at hargs'
        exact_mod_cast hargs'
      obtain ⟨rfl, rfl⟩ := List.append_inj hrest hlen
      rw [ih hr']

lemma Parses.frame {k : κ} {args : List UInt8} (hargs : T.nargs k = args.length) :
    Parses T (T.code k :: args) [(k, args)] := by
  have h := Parses.cons k args hargs Parses.nil
  rwa [List.append_nil] at h

lemma Parses.append {w v : List UInt8} {cs ds : List (κ × List UInt8)} (hc : Parses T w cs)
    (hd : Parses T v ds) : Parses T (w ++ v) (cs ++ ds) := by
  induction hc with
  | nil => exact hd
  | cons k args hargs _ ih =>
    rw [List.cons_append, List.append_assoc]
    exact Parses.cons k args hargs ih

end RoombaBrain.FrameCode
