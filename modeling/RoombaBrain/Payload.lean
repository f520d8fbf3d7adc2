import RoombaBrain.Response

/-!
What a payload can do.

A payload speaks for itself when it has a zero byte, and only then. A malformed one moves the
Roomba when the fields entered before the error select a command. A request is dropped without
a trace when it selects an operation that has no case of its own, or an undeclared enum value.
-/

namespace RoombaBrain.Payload

open RoombaBrain.ByteReader RoombaBrain.PbLocal RoombaBrain.PbDecode RoombaBrain.PbMessage
  RoombaBrain.PbFields RoombaBrain.Varint RoombaBrain.PbVarint RoombaBrain.Commands
  RoombaBrain.RpcSchema RoombaBrain.Rpc RoombaBrain.Dispatch RoombaBrain.Perform
  RoombaBrain.Response

/-! ### Nothing but the payload -/

/-- The request is decided by its payload: it comes to the same whatever follows the payload, and
`strlen` stops inside it. -/
structure OwnPayload (payload : Option (List UInt8)) : Prop where
  same : ∀ mallocOk after after', performRpcRequest mallocOk (dataAt payload after) =
    performRpcRequest mallocOk (dataAt payload after')
  inside : ∃ p n, payload = some p ∧ n < p.length ∧ ∀ after, strlen (p ++ after) = some n

/-- **A request is decided by its payload alone** if and only if the payload has a zero byte. -/
theorem ownPayload_iff (payload : Option (List UInt8)) :
    OwnPayload payload ↔ ∃ p, payload = some p ∧ 0 ∈ p := by
  constructor
  · rintro ⟨-, p, n, rfl, -, hn⟩
    refine ⟨p, rfl, ?_⟩
    by_contra h0
    have hnone := strlen_none h0
    rw [← List.append_nil p, hn []] at hnone
    cases hnone
  · rintro ⟨p, rfl, h0⟩
    have hafter : ∀ after, 0 ∈ p ++ after := fun after => List.mem_append_left after h0
    refine ⟨fun mallocOk after after' => ?_, p, (cstring p).length, rfl, ?_, fun after => ?_⟩
    · simp only [dataAt, Option.map_some, performRpcRequest_eq mallocOk (hafter _), entered,
        cstring_append h0]
    · obtain ⟨r, hr⟩ := exists_cstring h0
      have hlen := congrArg List.length hr
      rw [List.length_append, List.length_cons] at hlen
      omega
    · rw [strlen_cstring (hafter after), cstring_append h0]

/-- What follows a payload that holds an id only can switch the Roomba to full mode. -/
theorem payload_overrun : ¬ OwnPayload (some [0x08, 0x01]) := by
  intro h
  have hsame := h.same true [0] [0x12, 0x04, 0x1A, 0x02, 0x08, 0x01, 0]
  have hframes := congrArg (fun o => o.map Outcome.frames) hsame
  exact absurd hframes (by decide)

/-! ### What the fields select -/

/-- The last member of each oneof, and the fields entered in it. -/
def Selects (nodes : List Node) (outer member : ℕ) (leaf : List Node) : Prop :=
  ∃ inner, lastMember nodes = some (outer, inner) ∧ lastMember inner = some (member, leaf)

/-- A property of answers that are not logged, as one of the operation selected. -/
lemma selects_iff {S : Answer → Prop} (hlogged : ¬ S .logged) {P : ℕ → ℕ → UInt32 → Prop}
    (hroomba : ∀ member value, S (roombaAnswer member value) ↔ P 2 member value)
    (hactuator : ∀ member value value', S (actuatorAnswer member value value') ↔ P 3 member value)
    (houter : ∀ outer member value, P outer member value → outer = 2 ∨ outer = 3)
    (nodes : List Node) :
    (∃ outer member leaf, Selects nodes outer member leaf ∧ P outer member (lastValue 1 leaf)) ↔
      S (wireAnswer nodes) := by
  constructor
  · rintro ⟨outer, member, leaf, ⟨inner, hlast, hmember⟩, hp⟩
    rcases houter _ _ _ hp with rfl | rfl
    · simp only [wireAnswer, hlast, hmember]
      exact (hroomba member _).mpr hp
    · simp only [wireAnswer, hlast, hmember]
      exact (hactuator member _ _).mpr hp
  · intro h
    unfold wireAnswer at h
    split at h
    · next inner hlast =>
      split at h
      · next member leaf hmember =>
        exact ⟨2, member, leaf, ⟨inner, hlast, hmember⟩, (hroomba member _).mp h⟩
      · exact absurd h hlogged
    · next inner hlast =>
      split at h
      · next member leaf hmember =>
        exact ⟨3, member, leaf, ⟨inner, hlast, hmember⟩, (hactuator member _ _).mp h⟩
      · exact absurd h hlogged
    · exact absurd h hlogged

/-! ### Malformed requests -/

/-- The operation is carried out, with a declared value if it has an enum. -/
def CarriedOut (outer member : ℕ) (value : UInt32) : Prop :=
  outer = 2 ∧ (member = 1 ∨ member = 7 ∨ member = 2 ∧ value.toNat < 12 ∨
    member = 3 ∧ value.toNat < 2 ∨ member = 4 ∧ value.toNat < 4) ∨
  outer = 3 ∧ (member = 1 ∨ member = 12)

def Moves (nodes : List Node) : Prop :=
  ∃ outer member leaf, Selects nodes outer member leaf ∧
    CarriedOut outer member (lastValue 1 leaf)

lemma roombaAnswer_sent_iff (member : ℕ) (value : UInt32) :
    (∃ c, roombaAnswer member value = .sent c) ↔ CarriedOut 2 member value := by
  rcases member with _ | _ | _ | _ | _ | _ | _ | _ | n
  · simp [roombaAnswer, CarriedOut]
  · simp [roombaAnswer, CarriedOut]
  · have h : (∃ c, roombaAnswer 2 value = .sent c) ↔ value.toNat < 12 :=
      declared_sent_iff _ _ Command.baud rfl
    simpa [CarriedOut] using h
  · have h : (∃ c, roombaAnswer 3 value = .sent c) ↔ value.toNat < 2 :=
      declared_sent_iff _ _ Command.mode rfl
    simpa [CarriedOut] using h
  · have h : (∃ c, roombaAnswer 4 value = .sent c) ↔ value.toNat < 4 :=
      declared_sent_iff _ _ Command.clean rfl
    simpa [CarriedOut] using h
  · simp [roombaAnswer, CarriedOut]
  · simp [roombaAnswer, CarriedOut]
  · simp [roombaAnswer, CarriedOut]
  · simp [roombaAnswer, CarriedOut]

lemma actuatorAnswer_sent_iff (member : ℕ) (value value' : UInt32) :
    (∃ c, actuatorAnswer member value value' = .sent c) ↔ CarriedOut 3 member value := by
  rcases member with _ | _ | _ | _ | _ | _ | _ | _ | _ | _ | _ | _ | _ | n <;>
    simp [actuatorAnswer, CarriedOut]

lemma moves_iff (nodes : List Node) : Moves nodes ↔ ∃ c, wireAnswer nodes = .sent c :=
  selects_iff (S := fun a => ∃ c, a = .sent c) (by simp) roombaAnswer_sent_iff
    actuatorAnswer_sent_iff (fun _ _ _ h => h.imp And.left And.left) nodes

lemma frames_eq_nil_iff (nodes : List Node) : (wireAnswer nodes).frames = [] ↔ ¬ Moves nodes := by
  rw [moves_iff]
  cases wireAnswer nodes <;> simp [Answer.frames]

/-- **A malformed request writes nothing** if and only if the fields entered before the error do
not select an operation that is carried out. -/
theorem malformed_writes_nothing_iff (mallocOk : Bool) (payload after : List UInt8) (out : Outcome)
    (h : performRpcRequest mallocOk (dataAt (some payload) after) = some out)
    (hbad : out.decoded = false) :
    out.frames = [] ↔ ¬ Moves (entered (payload ++ after)).nodes := by
  obtain ⟨mem, hmem, -, rfl⟩ := exists_entered h
  cases hmem
  exact frames_eq_nil_iff _

/-- An id and a mode that is not declared are stored before the bad key. -/
theorem malformed_writes_nothing_bad_key : ∃ out, performRpcRequest true
    (dataAt (some [0x08, 0x05, 0x12, 0x04, 0x1A, 0x02, 0x08, 0x09, 0xFF]) [0]) = some out ∧
      out.decoded = false ∧ out.request.id = 5 ∧ out.request.roomba.mode.mode = 9 ∧
      out.frames = [] :=
  ⟨_, rfl, rfl, rfl, rfl, (malformed_writes_nothing_iff true
    [0x08, 0x05, 0x12, 0x04, 0x1A, 0x02, 0x08, 0x09, 0xFF] [0] _ rfl rfl).mpr (by
      rw [← frames_eq_nil_iff]
      rfl)⟩

/-- A drive followed by a bad key is carried out. -/
theorem malformed_drives : ¬ ∀ (payload after : List UInt8) (out : Outcome),
    performRpcRequest true (dataAt (some payload) after) = some out → out.decoded = false →
      out.frames = [] := by
  intro h
  have hframes := h [0x1A, 0x07, 0x0A, 0x05, 0x08, 0x64, 0x10, 0x80, 0x01, 0xFF] [0] _ rfl rfl
  exact absurd hframes (by decide)

/-! ### Requests dropped -/

/-- The operation has an empty case, or an enum with a value that is not declared. -/
def Skipped (outer member : ℕ) (value : UInt32) : Prop :=
  outer = 2 ∧ (member = 2 ∧ 12 ≤ value.toNat ∨ member = 3 ∧ 2 ≤ value.toNat ∨
    member = 4 ∧ 4 ≤ value.toNat) ∨
  outer = 3 ∧ member ∈ [2, 3, 4, 5, 6, 8, 9, 11]

def Silent (nodes : List Node) : Prop :=
  ∃ outer member leaf, Selects nodes outer member leaf ∧ Skipped outer member (lastValue 1 leaf)

lemma roombaAnswer_ignored_iff (member : ℕ) (value : UInt32) :
    roombaAnswer member value = .ignored ↔ Skipped 2 member value := by
  rcases member with _ | _ | _ | _ | _ | _ | _ | _ | n
  · simp [roombaAnswer, Skipped]
  · simp [roombaAnswer, Skipped]
  · have h : roombaAnswer 2 value = .ignored ↔ 12 ≤ value.toNat :=
      declared_ignored_iff _ _ Command.baud rfl
    simpa [Skipped] using h
  · have h : roombaAnswer 3 value = .ignored ↔ 2 ≤ value.toNat :=
      declared_ignored_iff _ _ Command.mode rfl
    simpa [Skipped] using h
  · have h : roombaAnswer 4 value = .ignored ↔ 4 ≤ value.toNat :=
      declared_ignored_iff _ _ Command.clean rfl
    simpa [Skipped] using h
  · simp [roombaAnswer, Skipped]
  · simp [roombaAnswer, Skipped]
  · simp [roombaAnswer, Skipped]
  · simp [roombaAnswer, Skipped]

lemma actuatorAnswer_ignored_iff (member : ℕ) (value value' : UInt32) :
    actuatorAnswer member value value' = .ignored ↔ Skipped 3 member value := by
  rcases member with _ | _ | _ | _ | _ | _ | _ | _ | _ | _ | _ | _ | _ | n <;>
    simp [actuatorAnswer, Skipped]

lemma silent_iff (nodes : List Node) : Silent nodes ↔ wireAnswer nodes = .ignored :=
  selects_iff (S := fun a => a = .ignored) (by simp) roombaAnswer_ignored_iff
    actuatorAnswer_ignored_iff (fun _ _ _ h => h.imp And.left And.left) nodes

def CarriesResult (bytes : List UInt8) : Prop :=
  ∃ item ∈ (parse responseFields bytes).items, ∃ c d content, item.1 = c ++ d ∧
    Reads keyReader c (some (2, 2)) ∧ Reads contentReader d content ∧ content ≠ []

/-- If nothing is written, an error is logged or the response carries a result. -/
def FailsVisibly (mallocOk : Bool) (data : Option (List UInt8)) : Prop :=
  ∃ out, performRpcRequest mallocOk data = some out ∧ (out.frames = [] →
    (∃ format which, .error format which ∈ out.log) ∨
      ∃ size bytes, out.reply = some (size, bytes) ∧ CarriesResult bytes)

lemma not_carriesResult (id : UInt32) : ¬ CarriesResult (responseBytes id) := by
  rintro ⟨item, hitem, c, d, content, hsplit, hkey, -, -⟩
  rw [responseBytes] at hitem
  split at hitem
  · simp at hitem
  · have hparse := parse_uint32 (show pbFieldIterFind responseFields 1 = _ from rfl)
      (by omega) (by omega) id.toNat_lt []
    rw [List.append_nil] at hparse
    rw [hparse] at hitem
    simp only [parse_nil, List.mem_singleton] at hitem
    subst hitem
    have hkey' : Reads keyReader (key 0 1) (some (0, 1)) :=
      keyReader_reads (by omega) (by omega) (by omega)
    have hsame := (Reads.unique hkey hkey' (r := d) (s := varint id.toNat) hsplit.symm).1
    simp at hsame

lemma logs_error_iff (request : RpcRequest) :
    (∃ format which, .error format which ∈ (handleRpcRequest request).map Action.log) ↔
      answer request = .logged := by
  have hdoes := handleRpcRequest_does request
  rcases ha : answer request with c | _ | _ <;> rw [ha] at hdoes
  · obtain ⟨call, hcall, -⟩ := hdoes
    simp [hcall, Action.log]
  · obtain ⟨format, which, hlog⟩ := hdoes
    simp [hlog, Action.log]
  · have hnil : handleRpcRequest request = [] := hdoes
    simp [hnil]

/-- **A request fails visibly** if and only if it is read at all and the fields entered do not
select an operation that is skipped. -/
theorem failsVisibly_iff (mallocOk : Bool) (data : Option (List UInt8)) :
    FailsVisibly mallocOk data ↔
      ∃ mem, data = some mem ∧ 0 ∈ mem ∧ ¬ Silent (entered mem).nodes := by
  constructor
  · rintro ⟨out, hout, hvisible⟩
    obtain ⟨mem, rfl, h0, rfl⟩ := exists_entered hout
    refine ⟨mem, rfl, h0, fun hsilent => ?_⟩
    have hignored := (silent_iff _).mp hsilent
    have hframes : (outcomeOf mallocOk (entered mem)).frames = [] := by
      show (wireAnswer (entered mem).nodes).frames = []
      rw [hignored]
      rfl
    rcases hvisible hframes with hlog | ⟨size, bytes, hreply, hresult⟩
    · have hlogged := (logs_error_iff _).mp hlog
      rw [answer_entered, hignored] at hlogged
      cases hlogged
    · rw [reply_eq] at hreply
      split at hreply
      · obtain ⟨-, rfl⟩ := Prod.mk.inj (Option.some.inj hreply)
        exact not_carriesResult _ hresult
      · cases hreply
  · rintro ⟨mem, rfl, h0, hsilent⟩
    refine ⟨_, performRpcRequest_eq mallocOk h0, fun hframes => Or.inl ?_⟩
    refine (logs_error_iff _).mpr ?_
    rw [answer_entered]
    rw [silent_iff] at hsilent
    rcases ha : wireAnswer (entered mem).nodes with c | _ | _
    · have hsent : (outcomeOf mallocOk (entered mem)).frames = [c.frame] := by
        show (wireAnswer (entered mem).nodes).frames = _
        rw [ha]
        rfl
      rw [hsent] at hframes
      cases hframes
    · rfl
    · exact absurd ha hsilent

/-- A direct drive is dropped. -/
theorem direct_drive_dropped :
    ¬ ∀ payload after, FailsVisibly true (dataAt (some payload) (after ++ [0])) := by
  intro h
  obtain ⟨out, hout, hvisible⟩ := h [0x1A, 0x04, 0x12, 0x02, 0x08, 0x64] []
  cases hout
  rcases hvisible (by decide) with ⟨format, which, hlog⟩ | ⟨size, bytes, hreply, hresult⟩
  · cases hlog
  · obtain ⟨-, rfl⟩ := Prod.mk.inj (Option.some.inj hreply)
    exact not_carriesResult 0 hresult

end RoombaBrain.Payload
