import RoombaBrain.Perform

/-!
The response.

Its bytes are those of the id that was decoded, and decode to it. That is the id of the request
when the last id on the wire comes before the first field with a zero byte in it.
-/

namespace RoombaBrain.Response

open RoombaBrain.ByteReader RoombaBrain.PbStream RoombaBrain.PbDecode RoombaBrain.PbMessage
  RoombaBrain.PbFields RoombaBrain.Varint RoombaBrain.PbVarint RoombaBrain.RpcSchema
  RoombaBrain.Rpc RoombaBrain.Dispatch RoombaBrain.Perform

/-! ### Decoding whole buffers -/

lemma istream_eq_on (bytes : List UInt8) :
    pbIstreamFromBuffer bytes bytes.length = on bytes [] := by
  rw [on, List.append_nil]
  rfl

lemma decodeResponse_eq (bytes : List UInt8) : decodeResponse bytes =
    if (parse responseFields bytes).whole then
      some (lastValue 1 (parse responseFields bytes).nodes) else none := by
  obtain ⟨hstruct, hok⟩ := pbDecode_on responseFields bytes []
  rw [decodeResponse, istream_eq_on, ← hok]
  rcases hd : pbDecode (on bytes []) responseFields .zero with ⟨d, e | s⟩
  · rfl
  · rw [hd] at hstruct
    simp only [succeeded, if_true, ← num_leaf, ← hstruct]

def decodeRequest (bytes : List UInt8) : Option RpcRequest :=
  match pbDecode (pbIstreamFromBuffer bytes bytes.length) requestFields .zero with
  | (d, .ok _) => some (rpcRequest d)
  | (_, .error _) => none

lemma decodeRequest_eq (bytes : List UInt8) : decodeRequest bytes =
    if (parse requestFields bytes).whole then
      some (rpcRequest (storeAll (parse requestFields bytes).nodes .zero)) else none := by
  obtain ⟨hstruct, hok⟩ := pbDecode_on requestFields bytes []
  rw [decodeRequest, istream_eq_on, ← hok]
  rcases hd : pbDecode (on bytes []) requestFields .zero with ⟨d, e | s⟩
  · rfl
  · rw [hd] at hstruct
    simp only [succeeded, if_true, ← hstruct]

/-! ### The response is complete -/

lemma decode_responseBytes (id : UInt32) : decodeResponse (responseBytes id) = some id := by
  rw [decodeResponse_eq, responseBytes]
  split
  · next h => simp [h, Parse.nodes, lastValue, lastStored]
  · have hparse := parse_uint32 (show pbFieldIterFind responseFields 1 = _ from rfl)
      (by omega) (by omega) id.toNat_lt []
    rw [List.append_nil] at hparse
    rw [hparse]
    simp [Parse.nodes, lastValue, lastStored, lastSome, storedTo]

lemma reply_eq (mallocOk : Bool) (p : Parse) : (outcomeOf mallocOk p).reply =
    if mallocOk ∨ (outcomeOf mallocOk p).request.id = 0 then
      some ((responseBytes (outcomeOf mallocOk p).request.id).length,
        responseBytes (outcomeOf mallocOk p).request.id) else none := by
  simp only [outcomeOf, respond_eq]

/-- A request that comes to anything has an outcome by its fields. -/
lemma exists_entered {mallocOk : Bool} {data : Option (List UInt8)} {out : Outcome}
    (h : performRpcRequest mallocOk data = some out) :
    ∃ mem, data = some mem ∧ 0 ∈ mem ∧ out = outcomeOf mallocOk (entered mem) := by
  rcases data with _ | mem
  · cases h
  · by_cases h0 : 0 ∈ mem
    · rw [performRpcRequest_eq mallocOk h0] at h
      exact ⟨mem, rfl, h0, (Option.some.inj h).symm⟩
    · rw [performRpcRequest_unterminated mallocOk h0] at h
      cases h

/-- **The response is complete and decodes to the id that decoding left**, whatever the request. -/
theorem reply_decodes (data : Option (List UInt8)) (out : Outcome)
    (h : performRpcRequest true data = some out) :
    out.encoded = true ∧ ∃ bytes, out.reply = some (bytes.length, bytes) ∧ bytes.length ≤ 6 ∧
      decodeResponse bytes = some out.request.id ∧ (out.request.id = 0 → bytes = []) := by
  obtain ⟨mem, -, -, rfl⟩ := exists_entered h
  refine ⟨rfl, responseBytes (outcomeOf true (entered mem)).request.id, ?_,
    responseBytes_length _, decode_responseBytes _, fun hid => by rw [responseBytes, if_pos hid]⟩
  rw [reply_eq, if_pos (Or.inl rfl)]

/-- The id of a request whose second field is cut off is answered. -/
theorem reply_decodes_truncated :
    ∃ out, performRpcRequest true (some [0x08, 0x07, 0x12, 0x00]) = some out ∧
      out.decoded = false ∧ ∃ bytes, out.reply = some (bytes.length, bytes) ∧
      bytes.length ≤ 6 ∧ decodeResponse bytes = some 7 := by
  obtain ⟨-, bytes, hreply, hlen, hid, -⟩ :=
    reply_decodes (some [0x08, 0x07, 0x12, 0x00]) _ rfl
  exact ⟨_, rfl, rfl, bytes, hreply, hlen, hid⟩

/-! ### The response answers the request -/

def lastId (items : List (List UInt8 × Node)) : UInt32 := lastValue 1 (items.map Prod.snd)

def beforeZero (items : List (List UInt8 × Node)) : List (List UInt8 × Node) :=
  items.takeWhile fun item => item.1.all fun b => b ≠ 0

/-- **The response answers the request** if and only if the id that stands before the first field
with a zero byte is the id of the whole request (and the reply is not lost with its buffer). -/
theorem reply_answers_iff (mallocOk : Bool) (p rest : List UInt8) (request : RpcRequest)
    (h : decodeRequest p = some request) :
    (∃ out bytes, performRpcRequest mallocOk (some (p ++ 0 :: rest)) = some out ∧
      out.reply = some (bytes.length, bytes) ∧ decodeResponse bytes = some request.id) ↔
    lastId (beforeZero (parse requestFields p).items) = lastId (parse requestFields p).items ∧
      (mallocOk ∨ lastId (parse requestFields p).items = 0) := by
  have hid : request.id = lastId (parse requestFields p).items := by
    rw [decodeRequest_eq] at h
    split at h
    · cases h
      exact num_leaf _ 1
    · cases h
  have hwhole : (parse requestFields p).whole = true := by
    by_contra hw
    rw [decodeRequest_eq, if_neg hw] at h
    cases h
  have hcut : (outcomeOf mallocOk (entered (p ++ 0 :: rest))).request.id =
      lastId (beforeZero (parse requestFields p).items) := by
    have hstored := lastStored_cut Nat.one_ne_zero (fun b => b ≠ 0) p hwhole
    show (storeAll (entered (p ++ 0 :: rest)).nodes .zero).num 1 = _
    rw [num_leaf, entered, cstring_terminated]
    exact congrArg (fun o => o.getD 0) hstored
  rw [performRpcRequest_eq mallocOk (by simp), hid, ← hcut]
  constructor
  · rintro ⟨out, bytes, hout, hreply, hdecode⟩
    cases hout
    rw [reply_eq] at hreply
    split at hreply
    · next hok =>
      obtain ⟨-, rfl⟩ := Prod.mk.inj (Option.some.inj hreply)
      rw [decode_responseBytes] at hdecode
      have heq := Option.some.inj hdecode
      exact ⟨heq, heq ▸ hok⟩
    · cases hreply
  · rintro ⟨heq, hok⟩
    refine ⟨_, _, rfl, ?_, (decode_responseBytes _).trans (congrArg some heq)⟩
    rw [reply_eq, if_pos (heq ▸ hok)]

/-- An id before an empty submessage is answered. -/
theorem reply_answers_iff_id_first : ∃ out bytes,
    performRpcRequest true (some ([0x08, 0x05, 0x12, 0x02, 0x3A, 0x00] ++ 0 :: [])) = some out ∧
      out.reply = some (bytes.length, bytes) ∧ decodeResponse bytes = some 5 :=
  (reply_answers_iff true [0x08, 0x05, 0x12, 0x02, 0x3A, 0x00] [] _ rfl).mpr
    ⟨by decide, Or.inl rfl⟩

/-- An id after an empty submessage is not: it lies behind the zero length of the submessage. -/
theorem reply_not_answers_id_last : ¬ ∀ (p rest : List UInt8) (request : RpcRequest),
    decodeRequest p = some request → ∃ out bytes,
      performRpcRequest true (some (p ++ 0 :: rest)) = some out ∧
      out.reply = some (bytes.length, bytes) ∧ decodeResponse bytes = some request.id := by
  intro h
  obtain ⟨out, bytes, hout, hreply, hdecode⟩ :=
    h [0x12, 0x02, 0x3A, 0x00, 0x08, 0x05] [] _ rfl
  cases hout
  obtain ⟨-, rfl⟩ := Prod.mk.inj (Option.some.inj hreply)
  exact absurd hdecode (by decide)

end RoombaBrain.Response
