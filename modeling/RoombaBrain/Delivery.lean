import RoombaBrain.Perform

/-!
Delivery of a request.

A request of the schema, in its canonical encoding, reaches the UART as its frame unless the
submessage it selects is empty: the length of an empty submessage is a zero byte, at which the
request is cut off.
-/

namespace RoombaBrain.Delivery

open RoombaBrain.ByteReader RoombaBrain.PbDecode RoombaBrain.PbMessage RoombaBrain.PbFollow
  RoombaBrain.PbFields RoombaBrain.Varint RoombaBrain.PbVarint RoombaBrain.Commands
  RoombaBrain.RpcSchema RoombaBrain.Rpc RoombaBrain.Dispatch RoombaBrain.Perform

/-! ### Requests and their encoding -/

/-- What a request selects. An enum may have any value. -/
inductive Body
  | start
  | power
  | baud (rate : Int32)
  | mode (mode : Int32)
  | clean (mode : Int32)
  | drive (velocity radius : { v : UInt32 // Image16 v })
  | play (song : UInt8)

structure Message where
  id : UInt32
  body : Body

/-- A scalar field, which is left out when it has its default value. -/
def encodeScalar (tag value : ℕ) : List UInt8 :=
  if value = 0 then [] else key 0 tag ++ varint value

/-- A submessage, which is emitted even when it is empty. -/
def encodeSub (tag : ℕ) (content : List UInt8) : List UInt8 := key 2 tag ++ delimited content

/-- The value of an enum on the wire: sign-extended to 64 bits. -/
def enumValue (e : Int32) : ℕ := (e.toInt % 2 ^ 64).toNat

namespace Body

def leaf : Body → List UInt8
  | start | power => []
  | baud e | mode e | clean e => encodeScalar 1 (enumValue e)
  | drive velocity radius =>
    encodeScalar 1 velocity.1.toNat ++ encodeScalar 2 radius.1.toNat
  | play song => encodeScalar 1 song.toNat

/-- The tag of the submessage selected in `Roomba` or `Actuator`. -/
def member : Body → ℕ
  | start => 1
  | baud _ => 2
  | mode _ => 3
  | clean _ => 4
  | power => 7
  | drive _ _ => 1
  | play _ => 12

def outer : Body → ℕ
  | drive _ _ | play _ => 3
  | _ => 2

/-- The frame of a request; there is none for an enum value that is not declared. -/
def frame : Body → List UInt8
  | start => [128]
  | power => [133]
  | baud e => if 0 ≤ e ∧ e ≤ 11 then [129, e.toUInt32.toUInt8] else []
  | mode e => if e = 0 then [131] else if e = 1 then [132] else []
  | clean e =>
    if e = 0 then [135] else if e = 1 then [136] else if e = 2 then [134]
    else if e = 3 then [143] else []
  | drive velocity radius =>
    [137, (velocity.1.toNat / 256).toUInt8, velocity.1.toNat.toUInt8,
      (radius.1.toNat / 256).toUInt8, radius.1.toNat.toUInt8]
  | play song => [141, song]

end Body

def Message.encode (m : Message) : List UInt8 :=
  encodeScalar 1 m.id.toNat ++ encodeSub m.body.outer (encodeSub m.body.member m.body.leaf)

/-! ### Lengths and zeros -/

lemma enumValue_lt (e : Int32) : enumValue e < 2 ^ 64 := by
  rw [enumValue]
  omega

lemma encodeScalar_length_le {tag k : ℕ} (value : ℕ) (ht : tag < 16) (hv : value < 128 ^ k)
    (hk : 0 < k) : (encodeScalar tag value).length ≤ k + 1 := by
  rw [encodeScalar]
  split
  · simp
  · have hkey : (key 0 tag).length = 1 := by
      rw [key, varint_of_lt (by omega)]
      rfl
    have := varintDigits_length_le 10 hv hk
    rw [List.length_append, hkey, varint]
    omega

lemma leaf_length_le (b : Body) : b.leaf.length ≤ 12 := by
  have henum : ∀ e, (encodeScalar 1 (enumValue e)).length ≤ 11 := fun e =>
    encodeScalar_length_le _ (by omega) (by have := enumValue_lt e; omega) (by omega)
  have hword : ∀ (tag : ℕ) (v : UInt32), tag < 16 → (encodeScalar tag v.toNat).length ≤ 6 :=
    fun tag v ht => encodeScalar_length_le _ ht (by have := v.toNat_lt; omega) (by omega)
  cases b with
  | start => simp [Body.leaf]
  | power => simp [Body.leaf]
  | baud e => exact Nat.le_succ_of_le (henum e)
  | mode e => exact Nat.le_succ_of_le (henum e)
  | clean e => exact Nat.le_succ_of_le (henum e)
  | drive velocity radius =>
    rw [Body.leaf, List.length_append]
    exact Nat.add_le_add (hword 1 velocity.1 (by omega)) (hword 2 radius.1 (by omega))
  | play song =>
    have hlen : (encodeScalar 1 song.toNat).length ≤ 2 + 1 :=
      encodeScalar_length_le _ (by omega) (by have := song.toNat_lt; omega) (by omega)
    exact Nat.le_trans hlen (by omega)

lemma encodeSub_eq {tag : ℕ} {content : List UInt8} (ht : tag < 16)
    (hlen : content.length < 128) :
    encodeSub tag content = (tag * 8 + 2).toUInt8 :: content.length.toUInt8 :: content := by
  rw [encodeSub, key, delimited, varint_of_lt (by omega), varint_of_lt hlen]
  rfl

lemma zero_notMem_encodeScalar {tag value : ℕ} (ht : 0 < tag) : 0 ∉ encodeScalar tag value := by
  rw [encodeScalar]
  split
  · simp
  · next hv =>
    rw [List.mem_append, not_or]
    exact ⟨zero_notMem_varint (by omega), zero_notMem_varint hv⟩

lemma zero_notMem_leaf (b : Body) : 0 ∉ b.leaf := by
  cases b with
  | start | power => simp [Body.leaf]
  | baud | mode | clean | play => exact zero_notMem_encodeScalar (by omega)
  | drive =>
    rw [Body.leaf, List.mem_append, not_or]
    exact ⟨zero_notMem_encodeScalar (by omega), zero_notMem_encodeScalar (by omega)⟩

/-- The encoding of a submessage has a zero byte only when the submessage is empty or has one. -/
lemma zero_notMem_encodeSub (tag : ℕ) {content : List UInt8} (hne : content ≠ [])
    (h : 0 ∉ content) : 0 ∉ encodeSub tag content := by
  have hlen : content.length ≠ 0 := fun h0 => hne (List.eq_nil_of_length_eq_zero h0)
  rw [encodeSub, delimited, List.mem_append, List.mem_append, not_or, not_or]
  exact ⟨zero_notMem_varint (by omega), zero_notMem_varint hlen, h⟩

/-! ### The fields of an encoded request -/

def scalarNodes (tag value : ℕ) : List Node :=
  if value = 0 then [] else [.uint32 tag value.toUInt32]

lemma scalar_nodes {fields : List PbField} {tag t value : ℕ}
    (hfind : pbFieldIterFind fields tag = some (.uint32 t)) (h0 : 0 < tag) (h16 : tag < 16)
    (hv : value < 2 ^ 64) :
    (parse fields (encodeScalar tag value)).nodes = scalarNodes tag value := by
  rw [encodeScalar, scalarNodes]
  split
  · rfl
  · have hbody := uint32_reads parse hv 0 tag t
    rw [← hfind] at hbody
    exact parse_last (keyReader_reads (by omega) h0 h16) hbody

lemma sub_nodes {fields entries : List PbField} {tag t : ℕ} {content : List UInt8}
    (hfind : pbFieldIterFind fields tag = some (.oneof t entries)) (h0 : 0 < tag)
    (h16 : tag < 16) (hlen : content.length < 128) :
    (parse fields (encodeSub tag content)).nodes =
      [.message true tag (parse entries content).nodes] := by
  have hbody := oneof_reads parse hlen 2 tag t entries
  rw [← hfind] at hbody
  exact parse_last (keyReader_reads (by omega) h0 h16) hbody

lemma scalar_nodes_append {fields : List PbField} {tag t value : ℕ}
    (hfind : pbFieldIterFind fields tag = some (.uint32 t)) (h0 : 0 < tag) (h16 : tag < 16)
    (hv : value < 2 ^ 32) (w : List UInt8) :
    (parse fields (encodeScalar tag value ++ w)).nodes =
      scalarNodes tag value ++ (parse fields w).nodes := by
  rw [encodeScalar, scalarNodes]
  split
  · rfl
  · rw [List.append_assoc, parse_uint32 hfind h0 h16 hv]
    rfl

lemma lastValue_scalar (tag value : ℕ) :
    lastValue tag (scalarNodes tag value) = value.toUInt32 := by
  rw [scalarNodes]
  split
  · next h => simp [h, lastValue, lastStored]
  · simp [lastValue, lastStored, lastSome, storedTo]

def Body.answer (b : Body) (nodes : List Node) : Answer :=
  if b.outer = 2 then roombaAnswer b.member (lastValue 1 nodes)
  else actuatorAnswer b.member (lastValue 1 nodes) (lastValue 2 nodes)

def Body.fields : Body → List PbField
  | .start => startRequestFields
  | .power => powerRequestFields
  | .baud _ => baudRequestFields
  | .mode _ => modeRequestFields
  | .clean _ => cleanRequestFields
  | .drive _ _ => driveRequestFields
  | .play _ => playRequestFields

lemma toNat_enumValue (e : Int32) :
    (enumValue e).toUInt32.toNat = (e.toInt % 2 ^ 32).toNat := by
  simp only [Nat.toUInt32, UInt32.toNat_ofNat', enumValue]
  omega

/-- An enum is one of the first `n` values, or its low 32 bits are none of them. -/
lemma enum_cases (e : Int32) {n : ℕ} (hn : n ≤ 2 ^ 31) :
    (∃ k < n, e = Int32.ofNat k) ∨
      (n ≤ (enumValue e).toUInt32.toNat ∧ ¬ (0 ≤ e.toInt ∧ e.toInt < n)) := by
  have hlt := e.toInt_lt
  have hge := e.le_toInt
  by_cases hpos : 0 ≤ e.toInt ∧ e.toInt < n
  · refine Or.inl ⟨e.toInt.toNat, by omega, ?_⟩
    rw [← Int32.toInt_inj, Int32.toInt_ofNat_of_lt (by omega)]
    omega
  · refine Or.inr ⟨?_, hpos⟩
    rw [toNat_enumValue]
    omega

lemma leaf_value {fields : List PbField} {tag t value : ℕ}
    (hfind : pbFieldIterFind fields tag = some (.uint32 t)) (h0 : 0 < tag) (h16 : tag < 16)
    (hv : value < 2 ^ 64) :
    lastValue tag (parse fields (encodeScalar tag value)).nodes = value.toUInt32 := by
  rw [scalar_nodes hfind h0 h16 hv, lastValue_scalar]

/-- An enum value that is not declared is answered with no frame. -/
lemma undeclared_frames {α : Type} (l : List α) (f : α → Command) {n : ℕ} (hn : l.length = n)
    {e : Int32} (hv : n ≤ (enumValue e).toUInt32.toNat) :
    (declared (l[(lastValue 1 (parse (scalarFields 1)
      (encodeScalar 1 (enumValue e))).nodes).toNat]?.map f)).frames.flatten = [] := by
  rw [leaf_value rfl (by omega) (by omega) (enumValue_lt e),
    (declared_ignored_iff l _ f hn).mpr hv]
  rfl

lemma lastValue_pair (v v' : ℕ) :
    lastValue 1 (scalarNodes 1 v ++ scalarNodes 2 v') = v.toUInt32 ∧
      lastValue 2 (scalarNodes 1 v ++ scalarNodes 2 v') = v'.toUInt32 := by
  simp only [scalarNodes, lastValue, lastStored]
  split <;> split <;> simp_all [lastSome, storedTo]

def Body.answered (b : Body) : List UInt8 :=
  (b.answer (parse b.fields b.leaf).nodes).frames.flatten

/-- A request with an enum is answered with its frame if that is so for the values declared, and
it has no frame for the others. -/
lemma answered_enum {α : Type} {l : List α} (f : α → Command) {n : ℕ} (hn : l.length = n)
    (hlt : n ≤ 2 ^ 31) (body : Int32 → Body)
    (hanswer : ∀ e, (body e).answered = (declared (l[(lastValue 1 (parse (scalarFields 1)
      (encodeScalar 1 (enumValue e))).nodes).toNat]?.map f)).frames.flatten)
    (hdeclared : ∀ k < n, (body (.ofNat k)).answered = (body (.ofNat k)).frame)
    (hframe : ∀ e : Int32, ¬ (0 ≤ e.toInt ∧ e.toInt < n) → (body e).frame = []) (e : Int32) :
    (body e).answered = (body e).frame := by
  rcases enum_cases e hlt with ⟨k, hk, rfl⟩ | ⟨hv, he⟩
  · exact hdeclared k hk
  · rw [hframe e he, hanswer e]
    exact undeclared_frames l f hn hv

lemma answered_baud (e : Int32) : (Body.baud e).answered = (Body.baud e).frame := by
  refine answered_enum Command.baud (n := 12) rfl (by omega) Body.baud (fun _ => rfl) (by decide)
    (fun e he => if_neg fun h => he ?_) e
  rw [Int32.le_iff_toInt_le, Int32.le_iff_toInt_le] at h
  exact ⟨h.1, Int.lt_add_one_of_le h.2⟩

lemma answered_mode (e : Int32) : (Body.mode e).answered = (Body.mode e).frame := by
  refine answered_enum Command.mode (n := 2) rfl (by omega) Body.mode (fun _ => rfl) (by decide)
    (fun e he => ?_) e
  rw [Body.frame, if_neg, if_neg] <;> (rintro rfl; exact he (by decide))

lemma answered_clean (e : Int32) : (Body.clean e).answered = (Body.clean e).frame := by
  refine answered_enum Command.clean (n := 4) rfl (by omega) Body.clean (fun _ => rfl) (by decide)
    (fun e he => ?_) e
  rw [Body.frame, if_neg, if_neg, if_neg, if_neg] <;> (rintro rfl; exact he (by decide))

lemma answered_drive (velocity radius : { v : UInt32 // Image16 v }) :
    (Body.drive velocity radius).answered = (Body.drive velocity radius).frame := by
  have hnodes : (parse driveRequestFields (Body.drive velocity radius).leaf).nodes =
      scalarNodes 1 velocity.1.toNat ++ scalarNodes 2 radius.1.toNat := by
    rw [Body.leaf, scalar_nodes_append rfl (by omega) (by omega) velocity.1.toNat_lt,
      scalar_nodes rfl (by omega) (by omega) (by have := radius.1.toNat_lt; omega)]
  obtain ⟨hv, hr⟩ := lastValue_pair velocity.1.toNat radius.1.toNat
  have hanswer : (Body.drive velocity radius).answer
      (scalarNodes 1 velocity.1.toNat ++ scalarNodes 2 radius.1.toNat) =
      .sent (.drive (word velocity.1) (word radius.1)) := by
    show Answer.sent (.drive (word _) (word _)) = _
    have hself : ∀ v : UInt32, v.toNat.toUInt32 = v := fun v => UInt32.ofNat_toNat
    rw [hv, hr, hself, hself]
  show ((Body.drive velocity radius).answer
    (parse driveRequestFields _).nodes).frames.flatten = _
  rw [hnodes, hanswer]
  show 137 :: (Command.bytesOf _ ++ Command.bytesOf _) ++ [] = _
  rw [bytesOf_word, bytesOf_word]
  rfl

lemma answered_play (song : UInt8) : (Body.play song).answered = (Body.play song).frame := by
  have hvalue : song.toNat.toUInt32.toUInt8 = song := by
    have := song.toNat_lt
    rw [← UInt8.toNat_inj, UInt32.toNat_toUInt8]
    simp only [Nat.toUInt32, UInt32.toNat_ofNat']
    omega
  show [(141 : UInt8), (lastValue 1 (parse playRequestFields _).nodes).toUInt8] = _
  rw [Body.leaf, leaf_value rfl (by omega) (by omega) (by have := song.toNat_lt; omega), hvalue]
  rfl

lemma answer_leaf (b : Body) :
    (b.answer (parse b.fields b.leaf).nodes).frames.flatten = b.frame := by
  cases b with
  | start | power => rfl
  | baud e => exact answered_baud e
  | mode e => exact answered_mode e
  | clean e => exact answered_clean e
  | drive velocity radius => exact answered_drive velocity radius
  | play song => exact answered_play song

lemma wireAnswer_id (id : ℕ) (nodes : List Node) :
    wireAnswer (scalarNodes 1 id ++ nodes) = wireAnswer nodes := by
  have hmember : lastMember (scalarNodes 1 id ++ nodes) = lastMember nodes := by
    rw [lastMember, lastSome_append, scalarNodes]
    split <;> simp [lastMember, lastSome, memberOf]
  rw [wireAnswer, wireAnswer, hmember]

lemma find_outer (b : Body) : ∃ entries,
    pbFieldIterFind requestFields b.outer = some (.oneof b.outer entries) ∧
      pbFieldIterFind entries b.member = some (.oneof b.member b.fields) := by
  cases b <;> exact ⟨_, rfl, rfl⟩

lemma tags_small (b : Body) : (0 < b.outer ∧ b.outer < 16) ∧ 0 < b.member ∧ b.member < 16 := by
  cases b <;> simp [Body.outer, Body.member]

lemma inner_length_le (b : Body) : (encodeSub b.member b.leaf).length ≤ 14 := by
  have hleaf := leaf_length_le b
  rw [encodeSub_eq (tags_small b).2.2 (by omega), List.length_cons, List.length_cons]
  omega

lemma wireAnswer_encode (m : Message) :
    wireAnswer (parse requestFields m.encode).nodes =
      m.body.answer (parse m.body.fields m.body.leaf).nodes := by
  obtain ⟨entries, houter, hmember⟩ := find_outer m.body
  obtain ⟨⟨ho, ho'⟩, hm, hm'⟩ := tags_small m.body
  have hleaf := leaf_length_le m.body
  have hinner := inner_length_le m.body
  rw [Message.encode, scalar_nodes_append rfl (by omega) (by omega) m.id.toNat_lt, wireAnswer_id,
    sub_nodes houter ho ho' (by omega), sub_nodes hmember hm hm' (by omega)]
  cases m.body <;> rfl

/-- An empty submessage cuts the request off inside the message around it. -/
lemma wireAnswer_cut (m : Message) (h : m.body.leaf = []) :
    wireAnswer (parse requestFields (cstring m.encode)).nodes = .logged := by
  obtain ⟨entries, houter, -⟩ := find_outer m.body
  obtain ⟨⟨ho, ho'⟩, hm, hm'⟩ := tags_small m.body
  have hinner := inner_length_le m.body
  -- the zero length of the submessage is the last byte of the request
  have hsplit : delimited (encodeSub m.body.member m.body.leaf) =
      (varint 2 ++ key 2 m.body.member) ++ [0] := by
    have hkey : (key 2 m.body.member).length = 1 := by
      rw [key, varint_of_lt (by omega)]
      rfl
    rw [h, encodeSub, delimited, delimited, List.length_append, hkey, List.append_assoc]
    rfl
  have hzero : 0 ∉ key 2 m.body.outer ++ (varint 2 ++ key 2 m.body.member) := by
    rw [List.mem_append, List.mem_append, not_or, not_or]
    exact ⟨zero_notMem_varint (by omega), zero_notMem_varint (by omega),
      zero_notMem_varint (by omega)⟩
  have hcut : cstring m.encode = encodeScalar 1 m.id.toNat ++
      (key 2 m.body.outer ++ (varint 2 ++ key 2 m.body.member)) := by
    rw [Message.encode, cstring_append_of_notMem (zero_notMem_encodeScalar (by omega)), encodeSub,
      hsplit, ← List.append_assoc, cstring_append_of_notMem hzero]
    simp [cstring]
  have hbody := oneof_reads parse (Nat.lt_of_le_of_lt hinner (by omega)) 2 m.body.outer
    m.body.outer entries
  rw [hsplit, ← houter] at hbody
  rw [hcut, scalar_nodes_append rfl (by omega) (by omega) m.id.toNat_lt, wireAnswer_id,
    parse_short_body (keyReader_reads (by omega) ho ho') hbody (by simp), houter]
  cases m.body <;> rfl

lemma eq_zero_of_encode {e : Int32} (h : encodeScalar 1 (enumValue e) = []) : e = 0 := by
  have hlt := e.toInt_lt
  have hge := e.le_toInt
  rw [encodeScalar] at h
  split at h
  · next h0 =>
    rw [enumValue] at h0
    rw [← Int32.toInt_inj]
    show e.toInt = 0
    omega
  · simp [key, varint_ne_nil] at h

lemma frame_ne_nil {b : Body} (h : b.leaf = []) : b.frame ≠ [] := by
  cases b with
  | start | power | drive | play => simp [Body.frame]
  | baud e | mode e | clean e =>
    obtain rfl := eq_zero_of_encode h
    decide

/-- **A request is delivered if and only if the submessage it selects is not empty.** -/
theorem delivered_iff (mallocOk : Bool) (m : Message) (rest : List UInt8) :
    (∃ out, performRpcRequest mallocOk (some (m.encode ++ 0 :: rest)) = some out ∧
      out.frames.flatten = m.body.frame) ↔ m.body.leaf ≠ [] := by
  rw [performRpcRequest_eq mallocOk (by simp), entered, cstring_terminated]
  constructor
  · rintro ⟨out, hout, hframe⟩ hleaf
    cases hout
    have hcut : (outcomeOf mallocOk (parse requestFields (cstring m.encode))).frames = [] := by
      rw [outcomeOf, wireAnswer_cut m hleaf]
      rfl
    rw [hcut] at hframe
    exact frame_ne_nil hleaf hframe.symm
  · intro hleaf
    have hzero : 0 ∉ m.encode := by
      have hinner := zero_notMem_encodeSub m.body.member hleaf (zero_notMem_leaf m.body)
      rw [Message.encode, List.mem_append, not_or]
      exact ⟨zero_notMem_encodeScalar (by omega),
        zero_notMem_encodeSub _ (by simp [encodeSub, key, varint_ne_nil]) hinner⟩
    have hself := cstring_append_of_notMem hzero []
    rw [List.append_nil] at hself
    refine ⟨_, rfl, ?_⟩
    show (wireAnswer _).frames.flatten = _
    rw [hself]
    show (wireAnswer (parse requestFields (m.encode ++ [])).nodes).frames.flatten = _
    rw [List.append_nil, wireAnswer_encode, answer_leaf]

/-- A start request is not delivered: the Roomba is never started. -/
theorem start_not_delivered : ¬ ∀ (m : Message) (rest : List UInt8), ∃ out,
    performRpcRequest true (some (m.encode ++ 0 :: rest)) = some out ∧
      out.frames.flatten = m.body.frame := by
  intro h
  obtain ⟨out, hout, hframe⟩ := h ⟨1, .start⟩ []
  cases hout
  exact absurd hframe (by decide)

end RoombaBrain.Delivery
