import RoombaBrain.Dispatch

/-!
What `perform_rpc_request` comes to.

Of the memory at `data` only the bytes before the first zero count: the fields on the wire there
decide the frames, the log and the response.
-/

namespace RoombaBrain.Perform

open RoombaBrain.ByteReader RoombaBrain.PbStream RoombaBrain.PbLocal RoombaBrain.PbDecode
  RoombaBrain.PbMessage RoombaBrain.PbFollow RoombaBrain.PbFields RoombaBrain.Varint
  RoombaBrain.PbVarint RoombaBrain.PbEncode RoombaBrain.RpcSchema RoombaBrain.Rpc
  RoombaBrain.Dispatch

/-! ### Strings -/

def cstring (mem : List UInt8) : List UInt8 := mem.takeWhile fun b => b ≠ 0

lemma all_ne_zero {mem : List UInt8} : (mem.all fun b => b ≠ 0) = true ↔ 0 ∉ mem := by
  simp only [ne_eq, decide_not, List.all_eq_true, Bool.not_eq_eq_eq_not, Bool.not_true,
    decide_eq_false_iff_not]
  exact ⟨fun h h0 => h 0 h0 rfl, fun h b hb h0 => h (h0 ▸ hb)⟩

lemma cstring_append_of_notMem {p : List UInt8} (h : 0 ∉ p) (r : List UInt8) :
    cstring (p ++ r) = p ++ cstring r := by
  rcases takeWhile_cut (fun b : UInt8 => b ≠ 0) p with ⟨-, hy⟩ | ⟨hall, -⟩
  · exact hy r
  · rw [all_ne_zero.mpr h] at hall
    cases hall

lemma cstring_append {p : List UInt8} (h : 0 ∈ p) (r : List UInt8) :
    cstring (p ++ r) = cstring p := by
  rcases takeWhile_cut (fun b : UInt8 => b ≠ 0) p with ⟨hall, -⟩ | ⟨-, t, u, rfl, -, hy⟩
  · exact absurd h (all_ne_zero.mp hall)
  · have hnil := hy []
    rw [List.append_nil] at hnil
    exact (hy r).trans hnil.symm

/-- The memory goes on with a zero after them. -/
lemma exists_cstring {mem : List UInt8} (h : 0 ∈ mem) : ∃ r, mem = cstring mem ++ 0 :: r := by
  induction mem with
  | nil => cases h
  | cons b mem ih =>
    by_cases hb : b = 0
    · exact ⟨mem, by simp [cstring, hb]⟩
    · obtain ⟨r, hr⟩ := ih (by simpa [Ne.symm hb] using h)
      refine ⟨r, ?_⟩
      simp only [cstring, ne_eq, decide_not] at hr ⊢
      rw [List.takeWhile_cons_of_pos (by simp [hb]), List.cons_append, ← hr]

lemma strlen_cstring {mem : List UInt8} (h : 0 ∈ mem) :
    strlen mem = some (cstring mem).length := by
  induction mem with
  | nil => cases h
  | cons b mem ih =>
    by_cases hb : b = 0
    · simp [strlen, cstring, hb]
    · have hmem := ih (by simpa [Ne.symm hb] using h)
      simp only [cstring, ne_eq, decide_not] at hmem
      simp [strlen, cstring, hb, hmem]

lemma strlen_none {mem : List UInt8} (h : 0 ∉ mem) : strlen mem = none := by
  induction mem with
  | nil => rfl
  | cons b mem ih =>
    obtain ⟨hb, hmem⟩ := not_or.mp (mt List.mem_cons.mpr h)
    simp [strlen, Ne.symm hb, ih hmem]

/-- A zero after the payload ends it, if not one in it. -/
lemma cstring_terminated (p rest : List UInt8) : cstring (p ++ 0 :: rest) = cstring p := by
  by_cases h : 0 ∈ p
  · exact cstring_append h _
  · have hself := cstring_append_of_notMem h []
    rw [List.append_nil] at hself
    rw [cstring_append_of_notMem h, hself]
    rfl

/-! ### The response -/

def responseBytes (id : UInt32) : List UInt8 :=
  if id = 0 then [] else key 0 1 ++ varint id.toNat

/-- What a client takes from the bytes of an `RPC_Response`: its id. -/
def decodeResponse (bytes : List UInt8) : Option UInt32 :=
  match pbDecode (pbIstreamFromBuffer bytes bytes.length) responseFields .zero with
  | (d, .ok _) => some (d.num 1)
  | (_, .error _) => none

lemma responseBytes_length (id : UInt32) : (responseBytes id).length ≤ 6 := by
  have hvarint : (varint id.toNat).length ≤ 5 :=
    varintDigits_length_le 10 (by have := id.toNat_lt; omega) (by omega)
  rw [responseBytes]
  split
  · simp
  · rw [List.length_append]
    exact Nat.add_le_add (Nat.le_refl 1) hvarint

lemma encode_id {id : UInt32} (h : id ≠ 0) :
    pbEncode (pbOstreamFromBuffer respBuf) responseFields (PbStruct.zero.setNum 1 id) =
      (.ok (), ⟨true, responseBytes id, respBuf, (responseBytes id).length⟩) := by
  have hlen := responseBytes_length id
  rw [responseBytes, if_neg h, List.length_append] at hlen
  have htag : pbEncodeTagForField (.uint32 1) = pbWrite (key 0 1) :=
    pbEncodeTag_eq (by omega) (by omega)
  have hvalue : id.toUInt64.toNat = id.toNat := UInt32.toNat_toUInt64 id
  have hkey := pbWrite_room (pbOstreamFromBuffer respBuf) (key 0 1) rfl
    (by simp only [pbOstreamFromBuffer, respBuf]; omega)
  have hid := pbWrite_room ((pbOstreamFromBuffer respBuf).wrote (key 0 1)) (varint id.toNat) rfl
    (by simp only [pbOstreamFromBuffer, PbOstream.wrote, respBuf]; omega)
  simp only [pbEncode, responseFields, encodeField.encodeFields, encodeField,
    pbCheckProto3DefaultValue, num_setNum, if_true, decide_eq_true_eq, if_neg h, andThen, htag,
    hkey, pbEncodeVarint_eq, hvalue, hid, skip]
  simp [PbOstream.wrote, pbOstreamFromBuffer, responseBytes, h]

lemma respond_eq (mallocOk : Bool) (id : UInt32) : respond mallocOk id =
    (true, if mallocOk ∨ id = 0 then some ((responseBytes id).length, responseBytes id)
      else none) := by
  by_cases h : id = 0
  · subst h
    cases mallocOk <;> rfl
  · have hne : responseBytes id ≠ [] := by
      rw [responseBytes, if_neg h]
      simp [varint_ne_nil]
    simp [respond, encode_id h, succeeded, h, hne]

/-! ### The outcome -/

def entered (mem : List UInt8) : Parse := parse requestFields (cstring mem)

lemma answer_entered (mem : List UInt8) :
    answer (rpcRequest (storeAll (entered mem).nodes .zero)) = wireAnswer (entered mem).nodes :=
  answer_storeAll (parse_of requestFields (cstring mem))

def outcomeOf (mallocOk : Bool) (p : Parse) : Outcome :=
  let request := rpcRequest (storeAll p.nodes .zero)
  { decoded := p.whole
    request := request
    actions := handleRpcRequest request
    frames := (wireAnswer p.nodes).frames
    log := (handleRpcRequest request).map Action.log
    encoded := true
    reply := (respond mallocOk request.id).2 }

/-- Decoding a window stores the fields on the wire and succeeds if they are well formed. -/
lemma pbDecode_on (fields : List PbField) (w m : List UInt8) :
    (pbDecode (on w m) fields .zero).1 = storeAll (parse fields w).nodes .zero ∧
      succeeded (pbDecode (on w m) fields .zero).2 = (parse fields w).whole := by
  have h := pbDecode_follows fields w
  rcases hw : (parse fields w).whole with _ | _ <;> rw [hw] at h
  · obtain ⟨e, he⟩ := h
    have he : pbDecode (on w m) fields .zero = _ := he m
    rw [he]
    exact ⟨rfl, rfl⟩
  · obtain ⟨t, ht⟩ := h
    have ht : pbDecode (on w m) fields .zero = _ := ht m
    rw [ht]
    exact ⟨rfl, rfl⟩

/-- **The bytes before the first zero decide what a request comes to.** -/
theorem performRpcRequest_eq (mallocOk : Bool) {mem : List UInt8} (h : 0 ∈ mem) :
    performRpcRequest mallocOk (some mem) = some (outcomeOf mallocOk (entered mem)) := by
  obtain ⟨r, hr⟩ := exists_cstring h
  have hstream : pbIstreamFromBuffer mem (cstring mem).length = on (cstring mem) (0 :: r) := by
    rw [on, ← hr]
    rfl
  have hdecode := pbDecode_on requestFields (cstring mem) (0 :: r)
  rw [← entered] at hdecode
  have hframes := (handleRpcRequest_does (rpcRequest (storeAll (entered mem).nodes .zero))).frames
  rw [answer_entered] at hframes
  have hrespond := respond_eq mallocOk (rpcRequest (storeAll (entered mem).nodes .zero)).id
  simp only [performRpcRequest, Option.bind_eq_bind, Option.bind_some, strlen_cstring h, hstream,
    hdecode, hframes, outcomeOf, hrespond]

lemma performRpcRequest_unterminated (mallocOk : Bool) {mem : List UInt8} (h : 0 ∉ mem) :
    performRpcRequest mallocOk (some mem) = none := by
  simp [performRpcRequest, strlen_none h]

end RoombaBrain.Perform
