import RoombaBrain.Roomba
import RoombaBrain.Runs

/-!
The argument loop of `send_roomba_cmd`, round by round.

`argLoop` gives up where the C function runs into undefined behaviour. Here the loop goes on: an
argument that was not passed is some value, and what is stored outside the buffer is not seen in
it. So it can be asked whether the loop ends at all. It does unless `len` is the top of `int8_t`:
then no value of the counter is above it.
-/

namespace RoombaBrain.ArgLoop

open RoombaBrain.Roomba RoombaBrain.Runs

/-- The variables of the loop: `i`, the arguments that `ap` still has, and `bfr`. -/
structure Loop where
  i : Int8
  ap : List Int32
  bfr : List (Option UInt8)

/-- A round of the loop; `beyond` is what `va_arg` gives when there is no argument left. -/
def argRound (len : Int8) (s : Loop) (beyond : Int32) : Option Loop :=
  if s.i ≤ len then
    some {
      i := s.i + 1
      ap := s.ap.tail
      bfr := (store s.bfr s.i (charOf (s.ap.headD beyond))).getD s.bfr }
  else none

/-- The loop of a call, which begins behind the opcode. -/
def argRounds (op : RoombaOpcode) (len : Int8) (args : List Int32) : Machine Loop Int32 where
  start := ⟨1, args, some (opcodes op).opcode :: List.replicate len.toInt.toNat none⟩
  step := argRound len

variable {op : RoombaOpcode} {len : Int8} {args : List Int32}

/-! ### The counter -/

def InRange (len : Int8) (s : Loop) : Prop := 1 ≤ s.i.toInt ∧ s.i.toInt ≤ len.toInt + 1

lemma inRange_start (h0 : 0 ≤ len.toInt) : InRange len (argRounds op len args).start := by
  refine ⟨Int.le_refl 1, ?_⟩
  show (1 : ℤ) ≤ len.toInt + 1
  omega

lemma inRange_round (hlen : len.toInt < 127) {s t : Loop} {beyond : Int32} (hs : InRange len s)
    (h : argRound len s beyond = some t) :
    InRange len t ∧ s.i.toInt ≤ len.toInt ∧ t.i.toInt = s.i.toInt + 1 := by
  unfold argRound at h
  unfold InRange at hs ⊢
  split at h
  · next hle =>
    rw [Int8.le_iff_toInt_le] at hle
    cases h
    have hsucc : (s.i + 1).toInt = s.i.toInt + 1 := toInt_succ (by omega) (by omega)
    refine ⟨⟨?_, ?_⟩, hle, hsucc⟩
    · show 1 ≤ (s.i + 1).toInt
      omega
    · show (s.i + 1).toInt ≤ len.toInt + 1
      omega
  · cases h

lemma inRange_run (h0 : 0 ≤ len.toInt) (hlen : len.toInt < 127) {beyond : List Int32} {s : Loop}
    (h : (argRounds op len args).run beyond = some s) : InRange len s := by
  refine Machine.invariant (I := InRange len) (inRange_start h0) (fun s b t hs hst => ?_) h
  exact (inRange_round hlen hs hst).1

/-- Below the top of its type the counter passes `len`. -/
lemma terminates_below (h0 : 0 ≤ len.toInt) (hlen : len.toInt < 127) :
    (argRounds op len args).Terminates := by
  refine Machine.terminates_of_measure (I := InRange len) (inRange_start h0)
    (fun s b t hs hst => ?_) (fun s => (len.toInt + 1 - s.i.toInt).toNat) fun s b t hs hst => ?_
  · exact (inRange_round hlen hs hst).1
  · obtain ⟨-, hle, hsucc⟩ := inRange_round hlen hs hst
    show (len.toInt + 1 - t.i.toInt).toNat < (len.toInt + 1 - s.i.toInt).toNat
    omega

/-- At the top of its type the counter goes from 127 to -128, and is never above `len`. -/
lemma not_terminates_top (htop : len.toInt = 127) : ¬ (argRounds op len args).Terminates := by
  refine Machine.not_terminates fun s beyond => ⟨_, if_pos ?_⟩
  have hlt := s.i.toInt_lt
  rw [Int8.le_iff_toInt_le, htop]
  omega

/-! ### The rounds are those of `argLoop` -/

/-- Past `len` there is no round. -/
lemma rounds_past {i : Int8} {bfr : List (Option UInt8)} (h : ¬ i ≤ len) :
    ∃ n, ∀ beyond : List Int32, beyond.length = n →
      ∃ s, beyond.foldlM (argRound len) ⟨i, args, bfr⟩ = some s ∧ ¬ s.i ≤ len ∧ s.bfr = bfr := by
  refine ⟨0, fun beyond hzero => ?_⟩
  obtain rfl := List.eq_nil_of_length_eq_zero hzero
  exact ⟨_, rfl, h, rfl⟩

/-- What `argLoop` computes is what the rounds leave in the buffer when the counter has passed
`len`, whatever lies beyond the arguments. -/
lemma argLoop_rounds {i : Int8} {bfr b : List (Option UInt8)}
    (h : argLoop len args i bfr = some b) : ∃ n, ∀ beyond : List Int32, beyond.length = n →
      ∃ s, beyond.foldlM (argRound len) ⟨i, args, bfr⟩ = some s ∧ ¬ s.i ≤ len ∧ s.bfr = b := by
  induction args generalizing i bfr with
  | nil =>
    unfold argLoop at h
    split at h
    · cases h
    · next hle =>
      cases h
      exact rounds_past hle
  | cons arg args ih =>
    unfold argLoop at h
    split at h
    · next hle =>
      obtain ⟨bfr', hstore, hrest⟩ := Option.bind_eq_some_iff.mp h
      obtain ⟨n, hn⟩ := ih hrest
      refine ⟨n + 1, fun beyond hlen => ?_⟩
      obtain ⟨v, beyond, rfl⟩ := List.exists_cons_of_length_eq_add_one hlen
      obtain ⟨s, hrun, hs⟩ := hn beyond (by simpa using hlen)
      refine ⟨s, ?_, hs⟩
      rw [List.foldlM_cons]
      simpa [argRound, hle, hstore] using hrun
    · next hle =>
      cases h
      exact rounds_past hle

/-- **A command that is written is what the rounds leave in the buffer.** -/
theorem sendRoombaCmd_rounds {bytes : List UInt8} (h : sendRoombaCmd op len args = some bytes) :
    ∃ n, ∀ beyond : List Int32, beyond.length = n →
      ∃ s, (argRounds op len args).run beyond = some s ∧ ¬ s.i ≤ len ∧
        filled s.bfr = some bytes := by
  unfold sendRoombaCmd at h
  split at h
  · cases h
  obtain ⟨bfr, hstore, h⟩ := Option.bind_eq_some_iff.mp h
  obtain ⟨bfr', hloop, hfilled⟩ := Option.bind_eq_some_iff.mp h
  rw [List.replicate_succ] at hstore
  have hstart := store_eq (p := []) (i := 0) rfl (opcodes op).opcode none
    (List.replicate len.toInt.toNat none)
  simp only [List.nil_append] at hstart
  rw [hstart] at hstore
  cases hstore
  obtain ⟨n, hn⟩ := argLoop_rounds hloop
  refine ⟨n, fun beyond hlen => ?_⟩
  obtain ⟨s, hrun, hout, hbfr⟩ := hn beyond hlen
  exact ⟨s, hrun, hout, hbfr ▸ hfilled⟩

/-! ### The frame -/

def byteOf (arg : Int32) : UInt8 := (arg.toInt % 256).toNat.toUInt8

lemma charOf_eq (arg : Int32) : charOf arg = byteOf arg := by
  have hint : arg.toInt = (arg.toUInt32.toNat : ℤ).bmod (2 ^ 32) :=
    BitVec.toInt_eq_toNat_bmod arg.toBitVec
  rw [← UInt8.toNat_inj, charOf, byteOf, UInt32.toNat_toUInt8, hint]
  simp only [Nat.toUInt8, UInt8.toNat_ofNat']
  have hlt := arg.toUInt32.toNat_lt
  rw [Int.bmod_def]
  split <;> omega

/-- The call builds its frame: the loop ends, each round stores to one of the cells behind the
opcode, and the bytes written are the opcode and the arguments mod 256. -/
structure BuildsFrame (op : RoombaOpcode) (len : Int8) (args : List Int32) : Prop where
  terminates : (argRounds op len args).Terminates
  stores : ∀ beyond s, (argRounds op len args).run beyond = some s → s.i ≤ len →
    1 ≤ s.i.toInt ∧ s.i.toInt ≤ len.toInt
  writes : sendRoombaCmd op len args = some ((opcodes op).opcode :: args.map byteOf)

/-- **A command with all its arguments is built** if and only if there are fewer than 127. -/
theorem buildsFrame_iff (op : RoombaOpcode) (len : Int8) (args : List Int32)
    (hlen : len.toInt = args.length) : BuildsFrame op len args ↔ len.toInt < 127 := by
  constructor
  · intro h
    by_contra hge
    have hlt := len.toInt_lt
    exact not_terminates_top (by omega) h.terminates
  · intro hlt
    refine ⟨terminates_below (by omega) hlt, fun beyond s h hle => ?_, ?_⟩
    · rw [Int8.le_iff_toInt_le] at hle
      exact ⟨(inRange_run (by omega) hlt h).1, hle⟩
    · rw [sendRoombaCmd_eq op hlen (by omega), funext charOf_eq]

/-- A song of one note, with an argument that does not fit in a byte. -/
theorem buildsFrame_iff_song : BuildsFrame .song 4 [0, 1, 300, -1] :=
  (buildsFrame_iff .song 4 [0, 1, 300, -1] rfl).mpr (by decide)

/-- With 127 arguments the loop goes on for ever. -/
theorem top_not_built : ¬ ∀ (op : RoombaOpcode) (len : Int8) (args : List Int32),
    len.toInt = args.length → BuildsFrame op len args := by
  intro h
  have hbuilt := h .song 127 (List.replicate 127 0) rfl
  exact not_terminates_top rfl hbuilt.terminates

end RoombaBrain.ArgLoop
