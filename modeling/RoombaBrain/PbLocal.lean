import RoombaBrain.PbStream

/-!
The readers of nanopb are local: they look at no byte outside their window.
-/

namespace RoombaBrain.PbLocal

open RoombaBrain.ByteReader RoombaBrain.PbStream

/-! ### Bytes -/

@[simp] lemma pbReadbyte_nil (m : List UInt8) :
    pbReadbyte (on [] m) = .error "end-of-stream" := rfl

@[simp] lemma pbReadbyte_cons (b : UInt8) (w m : List UInt8) :
    pbReadbyte (on (b :: w) m) = .ok (b, on w m) := rfl

lemma pbReadbyte_bind {α : Type} (g : UInt8 → Reader α) (b : UInt8) (w m : List UInt8) :
    (pbReadbyte >>= g) (on (b :: w) m) = g b (on w m) :=
  bind_ok (pbReadbyte_cons b w m)

lemma pbRead_reads (c : List UInt8) : Reads (pbRead c.length) c c := by
  intro r m
  have hlen : ¬ (on (c ++ r) m).bytesLeft < c.length := by simp
  have hbuf : bufRead (on (c ++ r) m).state c.length = some (c, r ++ m) := by
    simp [bufRead, List.append_assoc]
  unfold pbRead
  rw [if_neg hlen, hbuf]
  simp [on]

lemma pbRead_local (n : ℕ) : Local (pbRead n) := by
  intro w
  by_cases h : w.length < n
  · exact Or.inr ⟨"end-of-stream", fun m => by simp [pbRead, h]⟩
  · have hn : (w.take n).length = n := by simp; omega
    have hr := pbRead_reads (w.take n)
    rw [hn] at hr
    exact Or.inl ⟨w.take n, w.drop n, w.take n, (List.take_append_drop n w).symm, hr⟩

lemma pbRead_inv {n : ℕ} {c a : List UInt8} (h : Reads (pbRead n) c a) :
    c.length = n ∧ a = c := by
  have h0 := h [] []
  unfold pbRead bufRead at h0
  by_cases hlt : c.length < n
  · simp [hlt] at h0
  · simp only [List.append_nil, on_bytesLeft, on_state, if_neg hlt,
      if_pos (Nat.le_of_not_lt hlt), Except.ok.injEq, Prod.mk.injEq] at h0
    have hlen := congrArg Window.bytesLeft h0.2
    simp only [on_bytesLeft, List.length_nil] at hlen
    have hc : c.length = n := by omega
    exact ⟨hc, by rw [← h0.1, ← hc, List.take_length]⟩

/-! ### Varints -/

lemma varint32Loop_local (w : List UInt8) (bitpos : ℕ) (result : UInt32) :
    LocalAt (fun s => varint32Loop s.bytesLeft bitpos result s) w := by
  induction w generalizing bitpos result with
  | nil => exact Or.inr ⟨_, fun _ => rfl⟩
  | cons b w ih =>
    rcases hd : varint32Digit bitpos result b with e | result'
    · exact Or.inr ⟨e, fun m => by simp [varint32Loop, pbReadbyte_bind, hd]⟩
    · by_cases hb : b &&& 0x80 ≠ 0
      · refine LocalAt.cons (fun w m => ?_) (ih (bitpos + 7) result')
        simp [varint32Loop, pbReadbyte_bind, hd, hb]
      · by_cases hbit : bitpos + 7 = 35 ∧ b &&& 0x70 ≠ 0
        · refine LocalAt.cons (g := fail "varint overflow") (fun w m => ?_) (Local.fail _ w)
          simp only [varint32Loop, on_bytesLeft, List.length_cons, pbReadbyte_bind, hd]
          rw [if_neg hb, if_pos hbit]
        · refine LocalAt.cons (g := pure result') (fun w m => ?_) (Local.pure _ w)
          simp only [varint32Loop, on_bytesLeft, List.length_cons, pbReadbyte_bind, hd]
          rw [if_neg hb, if_neg hbit]

lemma varint32Rest_local (b : UInt8) : Local (varint32Rest b) := by
  intro w
  by_cases hb : b &&& 0x80 = 0
  · exact Or.inl ⟨[], w, b.toUInt32, rfl, fun r m => by simp [varint32Rest, hb]⟩
  · have h : varint32Rest b = fun s => varint32Loop s.bytesLeft 7 (b &&& 0x7F).toUInt32 s := by
      funext s
      simp [varint32Rest, hb]
    rw [h]
    exact varint32Loop_local w 7 _

lemma eof_ok {b : UInt8} {w m : List UInt8} {temp : UInt32} {s : PbIstream}
    (h : varint32Rest b (on w m) = .ok (temp, s)) :
    pbDecodeVarint32Eof (on (b :: w) m) = .ok (some temp, s) := by
  simp [pbDecodeVarint32Eof, h]

lemma eof_error {b : UInt8} {w m : List UInt8} {e : String}
    (h : varint32Rest b (on w m) = .error e) :
    pbDecodeVarint32Eof (on (b :: w) m) = .error e := by
  simp [pbDecodeVarint32Eof, h]

lemma pbDecodeVarint32_cons (b : UInt8) (w m : List UInt8) :
    pbDecodeVarint32 (on (b :: w) m) = varint32Rest b (on w m) := by
  rcases hr : varint32Rest b (on w m) with e | ⟨temp, s⟩
  · exact bind_error (eof_error hr)
  · exact bind_ok (eof_ok hr)

lemma pbDecodeVarint32_local : Local pbDecodeVarint32 := by
  intro w
  cases w with
  | nil => exact Or.inr ⟨_, fun _ => rfl⟩
  | cons b w => exact LocalAt.cons (pbDecodeVarint32_cons b) (varint32Rest_local b w)

lemma varintLoop_local (k bitpos : ℕ) (result : UInt64) : Local (varintLoop k bitpos result) := by
  induction k generalizing bitpos result with
  | zero => exact Local.fail _
  | succ k ih =>
    intro w
    by_cases hpos : 64 ≤ bitpos
    · exact Or.inr ⟨"varint overflow", fun _ => by simp [varintLoop, hpos]⟩
    cases w with
    | nil => exact Or.inr ⟨"end-of-stream", fun m => by
        simp only [varintLoop, if_neg hpos]
        exact bind_error (pbReadbyte_nil m)⟩
    | cons b w =>
      refine LocalAt.cons (fun w m => ?_) ((?_ : Local (if b &&& 0x80 ≠ 0 then
        varintLoop k (bitpos + 7) (result ||| ((b &&& 0x7F).toUInt64 <<< bitpos.toUInt64))
        else pure (result ||| ((b &&& 0x7F).toUInt64 <<< bitpos.toUInt64)))) w)
      · simp only [varintLoop, if_neg hpos]
        exact pbReadbyte_bind _ b w m
      · split
        · exact ih _ _
        · exact Local.pure _

lemma pbDecodeVarint_local : Local pbDecodeVarint := varintLoop_local 10 0 0

/-! ### Keys and skipped values -/

/-- `pb_decode_tag` away from the end of the stream. -/
def keyReader : Reader (Option (ℕ × ℕ)) := do
  let temp ← pbDecodeVarint32
  if temp = 0 then pure none
  else pure (some ((temp &&& 7).toNat, (temp >>> 3).toNat))

lemma keyReader_local : Local keyReader := by
  refine pbDecodeVarint32_local.bind fun temp => ?_
  split <;> exact Local.pure _

lemma pbDecodeTag_cons (b : UInt8) (w m : List UInt8) :
    pbDecodeTag (on (b :: w) m) = keyReader (on (b :: w) m) := by
  have h32 := pbDecodeVarint32_cons b w m
  rcases hr : varint32Rest b (on w m) with e | ⟨temp, s⟩
  · rw [hr] at h32
    rw [keyReader, bind_error h32]
    exact bind_error (eof_error hr)
  · rw [hr] at h32
    rw [keyReader, bind_ok h32]
    exact bind_ok (eof_ok hr)

lemma skipVarintLoop_local (w : List UInt8) :
    LocalAt (fun s => skipVarintLoop s.bytesLeft s) w := by
  induction w with
  | nil => exact Or.inr ⟨_, fun _ => rfl⟩
  | cons b w ih =>
    by_cases hb : b &&& 0x80 ≠ 0
    · refine LocalAt.cons (fun w m => ?_) ih
      simp [skipVarintLoop, pbReadbyte_bind, hb]
    · refine LocalAt.cons (g := pure ()) (fun w m => ?_) (Local.pure () w)
      simp only [skipVarintLoop, on_bytesLeft, List.length_cons, pbReadbyte_bind]
      rw [if_neg hb]

lemma pbSkipField_local (wireType : ℕ) : Local (pbSkipField wireType) := by
  have hread : ∀ n, Local (do let _ ← pbRead n; pure ()) := fun n =>
    (pbRead_local n).bind fun _ => Local.pure ()
  have hstring : Local pbSkipString :=
    pbDecodeVarint32_local.bind fun length => hread length.toNat
  unfold pbSkipField
  split
  · exact skipVarintLoop_local
  · exact hread 8
  · exact hstring
  · exact hread 4
  · exact Local.fail _

/-! ### Substreams -/

def contentReader : Reader (List UInt8) := do
  let size ← pbDecodeVarint32
  pbRead size.toNat

lemma contentReader_local : Local contentReader :=
  pbDecodeVarint32_local.bind fun size => pbRead_local size.toNat

/-- Closing a substream leaves the stream behind the content, wherever reading stopped in it. -/
lemma pbCloseStringSubstream_eq (rest r m state : List UInt8) :
    pbCloseStringSubstream ⟨state, r.length⟩ (on rest (r ++ m)) = .ok (on r m) := by
  unfold pbCloseStringSubstream
  by_cases h : rest = []
  · subst h
    simp [on]
  · have hread := (pbRead_reads rest).whole (r ++ m)
    rw [if_pos (by simpa using h), on_bytesLeft, hread]
    simp [on]

/-- Where the content reader succeeds the substream is the content, and closing it leaves the
stream behind the content. -/
lemma pbMakeStringSubstream_of_reads {c content : List UInt8} (h : Reads contentReader c content)
    (r m : List UInt8) : ∃ parent, pbMakeStringSubstream (on (c ++ r) m) =
      .ok (on content (r ++ m), parent) ∧
      ∀ rest, pbCloseStringSubstream parent (on rest (r ++ m)) = .ok (on r m) := by
  obtain ⟨d, x, size, rfl, hd, hx⟩ :=
    h.bind_inv pbDecodeVarint32_local fun size => pbRead_local size.toNat
  obtain ⟨hsize, rfl⟩ := pbRead_inv hx
  refine ⟨⟨content ++ (r ++ m), r.length⟩, ?_, fun rest => pbCloseStringSubstream_eq rest r m _⟩
  unfold pbMakeStringSubstream
  rw [List.append_assoc, hd (content ++ r) m]
  simp [on, hsize]

lemma pbMakeStringSubstream_of_fails {w : List UInt8} (h : Fails contentReader w) :
    ∃ e, ∀ m, pbMakeStringSubstream (on w m) = .error e := by
  rcases pbDecodeVarint32_local w with ⟨d, t, size, rfl, hd⟩ | ⟨e, he⟩
  · refine ⟨"parent stream too short", fun m => ?_⟩
    have hlt : t.length < size.toNat := by
      by_contra hge
      have hn : (t.take size.toNat).length = size.toNat := by simp; omega
      have hx := pbRead_reads (t.take size.toNat)
      rw [hn] at hx
      have hc : Reads contentReader (d ++ t.take size.toNat) (t.take size.toNat) := hd.bind hx
      refine hc.not_fails (t.drop size.toNat) ?_
      rwa [List.append_assoc, List.take_append_drop]
    unfold pbMakeStringSubstream
    rw [hd t m]
    simp [hlt]
  · exact ⟨e, fun m => by unfold pbMakeStringSubstream; rw [he]⟩

end RoombaBrain.PbLocal
