import RoombaBrain.PbMessage

/-!
The decoder stores what the bytes say.

Decoding a window of bytes leaves the struct with the stores of the fields entered, in order,
and succeeds if and only if the message is well formed. Nothing of this depends on the memory
behind the window. The fuel of both loops is never used up.
-/

namespace RoombaBrain.PbFollow

open RoombaBrain.ByteReader RoombaBrain.PbStream RoombaBrain.PbLocal RoombaBrain.PbDecode
  RoombaBrain.PbMessage

/-! ### Defaults -/

mutual

lemma fieldDefault_zero (field : PbField) : pbFieldSetToDefault field .zero = .zero := by
  cases field with
  | uint32 tag => simp [pbFieldSetToDefault]
  | message tag fields => simp [pbFieldSetToDefault, defaults_zero fields]
  | oneof tag fields => simp [pbFieldSetToDefault]
  | callback tag => simp [pbFieldSetToDefault]
  | last => simp [pbFieldSetToDefault]

lemma defaults_zero (fields : List PbField) : pbMessageSetToDefaults fields .zero = .zero := by
  cases fields with
  | nil => rfl
  | cons field fields =>
    simp only [pbMessageSetToDefaults, pbFieldSetToDefault.defaults, fieldDefault_zero field]
    exact defaults_zero fields

end

lemma pbFieldIterFind_tag {fields : List PbField} {tag : ℕ} {field : PbField}
    (h : pbFieldIterFind fields tag = some field) : field.tag = tag := by
  unfold pbFieldIterFind at h
  split at h
  · split at h
    · cases h
      simp_all [PbField.tag]
    · cases h
  · simpa using List.find?_some h

/-! ### One field -/

/-- On the window `w` the decoder leaves the struct `d`, and fails or goes on somewhere in the
window, whatever memory lies behind it. -/
def Leaves (f : PbIstream → Decoded) (w : List UInt8) (d : PbStruct) (whole : Bool) : Prop :=
  match whole with
  | true => ∃ r, ∀ m, f (on w m) = (d, .ok (on r m))
  | false => ∃ e, ∀ m, f (on w m) = (d, .error e)

def Follows (inner : List PbField → List UInt8 → Parse) (noinit : List PbField → Decoder) :
    Prop :=
  ∀ fields dest w,
    Leaves (noinit fields dest) w (storeAll (inner fields w).nodes dest) (inner fields w).whole

def LeavesAt (f : PbIstream → Decoded) (w r : List UInt8) (d : PbStruct) (whole : Bool) : Prop :=
  match whole with
  | true => ∀ m, f (on w m) = (d, .ok (on r m))
  | false => ∃ e, ∀ m, f (on w m) = (d, .error e)

/-- A decoder that stores what another one leaves. -/
lemma LeavesAt.store {f f' : PbIstream → Decoded} {w r : List UInt8} {d : PbStruct} {whole : Bool}
    (h : LeavesAt f w r d whole) {g : PbStruct → PbStruct}
    (hf : ∀ stream, f' stream = (g (f stream).1, (f stream).2)) : LeavesAt f' w r (g d) whole := by
  cases whole with
  | true => exact fun m => by rw [hf, h m]
  | false =>
    obtain ⟨e, he⟩ := h
    exact ⟨e, fun m => by rw [hf, he]⟩

variable {inner : List PbField → List UInt8 → Parse} {noinit : List PbField → Decoder}

lemma submessage_reads (hin : Follows inner noinit) (fields : List PbField) (dest : PbStruct)
    {c content : List UInt8} (hc : Reads contentReader c content) (r : List UInt8) :
    LeavesAt (pbDecSubmessage (noinit fields) dest) (c ++ r) r
      (storeAll (inner fields content).nodes dest) (inner fields content).whole := by
  have h := hin fields dest content
  rcases hw : (inner fields content).whole with _ | _
  · rw [hw] at h
    obtain ⟨e, he⟩ := h
    refine ⟨e, fun m => ?_⟩
    obtain ⟨parent, hmake, -⟩ := pbMakeStringSubstream_of_reads hc r m
    simp only [pbDecSubmessage, hmake, he]
  · rw [hw] at h
    obtain ⟨rest, hrest⟩ := h
    intro m
    obtain ⟨parent, hmake, hclose⟩ := pbMakeStringSubstream_of_reads hc r m
    simp only [pbDecSubmessage, hmake, hrest, hclose]

lemma submessage_fails (noinit : List PbField → Decoder) (fields : List PbField)
    (dest : PbStruct) {w : List UInt8} (hw : Fails contentReader w) :
    ∃ e, ∀ m, pbDecSubmessage (noinit fields) dest (on w m) = (dest, .error e) := by
  obtain ⟨e, he⟩ := pbMakeStringSubstream_of_fails hw
  exact ⟨e, fun m => by simp only [pbDecSubmessage, he]⟩

/-- A value that is read leaves its stores; one that does not fit leaves them as well. -/
lemma decodeField_reads (hin : Follows inner noinit) (field : PbField) (wireType : ℕ)
    (dest : PbStruct) {d : List UInt8} {ok : Bool} {node : Node}
    (hd : Reads (bodyReader inner (some field) wireType field.tag) d (ok, node))
    (r : List UInt8) :
    LeavesAt (decodeField noinit wireType field dest) (d ++ r) r (node.store dest) ok := by
  cases field with
  | uint32 tag =>
    obtain ⟨value, hv, hc⟩ := hd.bind_pure_inv pbDecodeVarint_local
    obtain ⟨rfl, rfl⟩ := Prod.mk.inj hv
    have hstep : ∀ m, decodeField noinit wireType (.uint32 tag) dest (on (d ++ r) m) =
        (dest.setNum tag value.toUInt32,
          if value.toUInt32.toUInt64 ≠ value then .error "integer too large"
          else .ok (on r m)) := fun m => by
      simp only [decodeField, decodeStaticField, pbDecUvarint, hc r m]
    by_cases hfit : value.toUInt32.toUInt64 = value
    · rw [decide_eq_true hfit]
      intro m
      rw [hstep, if_neg (not_not_intro hfit)]
      rfl
    · rw [decide_eq_false hfit]
      refine ⟨"integer too large", fun m => ?_⟩
      rw [hstep, if_pos hfit]
      rfl
  | message tag fields =>
    obtain ⟨content, hv, hc⟩ := hd.bind_pure_inv contentReader_local
    obtain ⟨rfl, rfl⟩ := Prod.mk.inj hv
    exact (submessage_reads hin fields (dest.sub tag) hc r).store fun _ => rfl
  | oneof tag fields =>
    obtain ⟨content, hv, hc⟩ := hd.bind_pure_inv contentReader_local
    obtain ⟨rfl, rfl⟩ := Prod.mk.inj hv
    refine (submessage_reads hin fields .zero hc r).store
      (g := (dest.setNum 0 tag.toUInt32).setSub tag) fun stream => ?_
    simp only [decodeField, decodeStaticField, defaults_zero]
  | callback tag =>
    obtain ⟨u, hv, hc⟩ := hd.bind_pure_inv (pbSkipField_local wireType)
    obtain ⟨rfl, rfl⟩ := Prod.mk.inj hv
    intro m
    simp only [decodeField, decodeCallbackField, hc r m, Node.store]
  | last =>
    obtain ⟨c, x, value, rfl, -, hx⟩ :=
      hd.bind_inv pbDecodeVarint_local fun _ => Local.fail _
    cases hx [] []

/-- A value that cannot be read leaves what the attempt stores before it fails. -/
lemma decodeField_fails (noinit : List PbField → Decoder) (field : PbField) (wireType : ℕ)
    (dest : PbStruct) {w : List UInt8}
    (hw : Fails (bodyReader inner (some field) wireType field.tag) w) :
    ∃ e, ∀ m, decodeField noinit wireType field dest (on w m) =
      (storeAll (brokenNode (some field) field.tag) dest, .error e) := by
  cases field with
  | uint32 tag =>
    obtain ⟨e, he⟩ := fails_of_bind_pure pbDecodeVarint_local hw
    exact ⟨e, fun m => by simp only [decodeField, decodeStaticField, pbDecUvarint, he]; rfl⟩
  | message tag fields =>
    obtain ⟨e, he⟩ := submessage_fails noinit fields (dest.sub tag)
      (fails_of_bind_pure contentReader_local hw)
    exact ⟨e, fun m => by simp only [decodeField, decodeStaticField, he]; rfl⟩
  | oneof tag fields =>
    obtain ⟨e, he⟩ := submessage_fails noinit fields .zero
      (fails_of_bind_pure contentReader_local hw)
    exact ⟨e, fun m => by
      simp only [decodeField, decodeStaticField, defaults_zero, he]; rfl⟩
  | callback tag =>
    obtain ⟨e, he⟩ := fails_of_bind_pure (pbSkipField_local wireType) hw
    exact ⟨e, fun m => by simp only [decodeField, decodeCallbackField, he]; rfl⟩
  | last =>
    rcases pbDecodeVarint_local w with ⟨c, r, value, rfl, hc⟩ | ⟨e, he⟩
    · exact ⟨"invalid data_size", fun m => by
        simp only [decodeField, decodeStaticField, pbDecVarint, hc r m]; rfl⟩
    · exact ⟨e, fun m => by
        simp only [decodeField, decodeStaticField, pbDecVarint, he]; rfl⟩

def enterField (noinit : List PbField → Decoder) (field : Option PbField) (wireType : ℕ)
    (dest : PbStruct) (stream : PbIstream) : Decoded :=
  match field with
  | none => decodeCallbackField wireType dest stream
  | some field => decodeField noinit wireType field dest stream

lemma enterField_reads (hin : Follows inner noinit) (fields : List PbField) (wireType tag : ℕ)
    (dest : PbStruct) {d : List UInt8} {ok : Bool} {node : Node}
    (hd : Reads (bodyReader inner (pbFieldIterFind fields tag) wireType tag) d (ok, node))
    (r : List UInt8) :
    LeavesAt (enterField noinit (pbFieldIterFind fields tag) wireType dest) (d ++ r) r
      (node.store dest) ok := by
  rcases hfind : pbFieldIterFind fields tag with _ | field
  · rw [hfind] at hd
    obtain ⟨u, hv, hc⟩ := hd.bind_pure_inv (pbSkipField_local wireType)
    obtain ⟨rfl, rfl⟩ := Prod.mk.inj hv
    intro m
    simp only [enterField, decodeCallbackField, hc r m, Node.store]
  · rw [hfind] at hd
    obtain rfl := pbFieldIterFind_tag hfind
    exact decodeField_reads hin field wireType dest hd r

lemma enterField_fails (noinit : List PbField → Decoder) (fields : List PbField)
    (wireType tag : ℕ) (dest : PbStruct) {w : List UInt8}
    (hw : Fails (bodyReader inner (pbFieldIterFind fields tag) wireType tag) w) :
    ∃ e, ∀ m, enterField noinit (pbFieldIterFind fields tag) wireType dest (on w m) =
      (storeAll (brokenNode (pbFieldIterFind fields tag) tag) dest, .error e) := by
  rcases hfind : pbFieldIterFind fields tag with _ | field
  · rw [hfind] at hw
    obtain ⟨e, he⟩ := fails_of_bind_pure (pbSkipField_local wireType) hw
    exact ⟨e, fun m => by simp only [enterField, decodeCallbackField, he]; rfl⟩
  · rw [hfind] at hw
    obtain rfl := pbFieldIterFind_tag hfind
    exact decodeField_fails noinit field wireType dest hw

/-! ### A message -/

lemma noinitLoop_nil (fuel : ℕ) (fields : List PbField) (dest : PbStruct) (m : List UInt8) :
    noinitLoop (fuel + 1) fields dest (on [] m) = (dest, .ok (on [] m)) := by
  simp [noinitLoop]

/-- Away from the end of the stream the loop reads a key and enters its field. -/
lemma noinitLoop_key (fuel : ℕ) (fields : List PbField) (dest : PbStruct) {w : List UInt8}
    (hw : w ≠ []) (m : List UInt8) : noinitLoop (fuel + 1) fields dest (on w m) =
      match keyReader (on w m) with
      | .error e => (dest, .error e)
      | .ok (none, stream) => (dest, .ok stream)
      | .ok (some (wireType, tag), stream) =>
        match enterField (noinitLoop fuel) (pbFieldIterFind fields tag) wireType dest stream with
        | (dest, .error e) => (dest, .error e)
        | (dest, .ok stream) => noinitLoop fuel fields dest stream := by
  cases w with
  | nil => exact absurd rfl hw
  | cons b w =>
    simp only [noinitLoop, on_bytesLeft, List.length_cons, pbDecodeTag_cons]
    rw [if_neg (Nat.succ_ne_zero _)]
    rcases keyReader (on (b :: w) m) with e | ⟨_ | ⟨wireType, tag⟩, stream⟩
    · rfl
    · rfl
    · rcases hfind : pbFieldIterFind fields tag with _ | field
      · rcases hs : pbSkipField wireType stream with e | ⟨u, s⟩ <;>
          simp only [hfind, hs, enterField, decodeCallbackField]
      · rcases hd : decodeField (noinitLoop fuel) wireType field dest stream with ⟨d, e | s⟩ <;>
          simp only [hfind, hd, enterField]

/-- **The loop of the decoder follows the fields on the wire.** -/
theorem noinitLoop_follows (fuel : ℕ) : Follows (parseLoop fuel) (noinitLoop fuel) := by
  induction fuel with
  | zero => exact fun _ _ _ => ⟨_, fun _ => rfl⟩
  | succ fuel ih =>
    intro fields dest w
    have hrule := parseField_rule (parseLoop fuel) fields w
    rw [parseLoop]
    generalize parseField (parseLoop fuel) fields w = st at hrule
    cases hrule with
    | done => exact ⟨[], fun m => noinitLoop_nil fuel fields dest m⟩
    | badKey hw hkey =>
      obtain ⟨e, he⟩ := hkey
      exact ⟨e, fun m => by rw [noinitLoop_key fuel fields dest hw, he]; rfl⟩
    | @zeroKey c r hc hkey =>
      exact ⟨r, fun m => by
        rw [noinitLoop_key fuel fields dest (by simp [hc]), hkey r m]; rfl⟩
    | @broken c r wireType tag hc hkey hbody =>
      obtain ⟨e, he⟩ := enterField_fails (noinitLoop fuel) fields wireType tag dest hbody
      refine ⟨e, fun m => ?_⟩
      rw [noinitLoop_key fuel fields dest (by simp [hc]), hkey r m]
      simp [he, Parse.nodes, Function.comp_def]
    | @bad c d wireType tag node r hc hkey hbody =>
      obtain ⟨e, he⟩ := enterField_reads ih fields wireType tag dest hbody r
      refine ⟨e, fun m => ?_⟩
      rw [noinitLoop_key fuel fields dest (by simp [hc]), hkey (d ++ r) m]
      simp [he, Parse.nodes, Node.store.storeAll]
    | @good c d wireType tag node r hc hkey hbody =>
      have hstep : ∀ m, noinitLoop (fuel + 1) fields dest (on (c ++ (d ++ r)) m) =
          noinitLoop fuel fields (node.store dest) (on r m) := fun m => by
        have henter := enterField_reads ih fields wireType tag dest hbody r m
        rw [noinitLoop_key fuel fields dest (by simp [hc]), hkey (d ++ r) m]
        simp only [henter]
      simp only [Leaves, hstep]
      exact ih fields (node.store dest) r

/-! ### The fuel -/

lemma contentReader_length {c content : List UInt8} (h : Reads contentReader c content) :
    content.length ≤ c.length := by
  obtain ⟨d, x, size, rfl, -, hx⟩ :=
    h.bind_inv pbDecodeVarint32_local fun size => pbRead_local size.toNat
  obtain ⟨-, rfl⟩ := pbRead_inv hx
  simp

lemma bodyReader_congr {inner' : List PbField → List UInt8 → Parse} (field : Option PbField)
    (wireType tag : ℕ) (w : List UInt8)
    (h : ∀ fields content, content.length ≤ w.length →
      inner fields content = inner' fields content) :
    bodyReader inner field wireType tag (on w []) =
      bodyReader inner' field wireType tag (on w []) := by
  have hcontent : ∀ fields (oneof : Bool), (do
      let content ← contentReader
      pure ((inner fields content).whole, Node.message oneof tag (inner fields content).nodes) :
        Reader (Bool × Node)) (on w []) = (do
      let content ← contentReader
      pure ((inner' fields content).whole, Node.message oneof tag (inner' fields content).nodes) :
        Reader (Bool × Node)) (on w []) := by
    intro fields oneof
    rcases contentReader_local w with ⟨c, r, content, rfl, hc⟩ | ⟨e, he⟩
    · rw [bind_ok (hc r []), bind_ok (hc r []),
        h fields content (Nat.le_trans (contentReader_length hc) (by simp))]
    · rw [bind_error (he []), bind_error (he [])]
  rcases field with _ | ⟨tag | ⟨tag, fields⟩ | ⟨tag, fields⟩ | tag | _⟩
  · rfl
  · rfl
  · exact hcontent fields false
  · exact hcontent fields true
  · rfl
  · rfl

lemma parseField_congr {inner' : List PbField → List UInt8 → Parse} (fields : List PbField)
    (w : List UInt8) (h : ∀ fields content, content.length < w.length →
      inner fields content = inner' fields content) :
    parseField inner fields w = parseField inner' fields w := by
  cases w with
  | nil => rfl
  | cons b w =>
    rcases keyReader_local (b :: w) with ⟨c, r, k, hw, hc⟩ | ⟨e, he⟩
    · have hlen := congrArg List.length hw
      have hpos := List.length_pos_iff.mpr (keyReader_ne_nil hc)
      rw [List.length_append] at hlen
      have hkey : keyReader (on (b :: w) []) = .ok (k, on r []) := by rw [hw, hc r []]
      rcases k with _ | ⟨wireType, tag⟩
      · simp only [parseField, hkey]
      · have hbody := bodyReader_congr (pbFieldIterFind fields tag) wireType tag r
          fun fields content hle => h fields content (by omega)
        simp only [parseField, hkey, hbody]
    · simp only [parseField, he]

lemma parseField_length {fields : List PbField} {w rest : List UInt8} {node : Node}
    (h : parseField inner fields w = .field node rest) : rest.length < w.length := by
  have hrule := parseField_rule inner fields w
  rw [h] at hrule
  cases hrule with
  | good r hc hkey hbody =>
    have := List.length_pos_iff.mpr hc
    simp only [List.length_append]
    omega

lemma parseLoop_fuel (n : ℕ) : ∀ (fields : List PbField) (w : List UInt8) (f g : ℕ),
    w.length ≤ n → w.length < f → w.length < g →
    parseLoop f fields w = parseLoop g fields w := by
  induction n with
  | zero =>
    intro fields w f g hn hf hg
    obtain rfl := List.eq_nil_of_length_eq_zero (Nat.le_zero.mp hn)
    obtain ⟨f, rfl⟩ := Nat.exists_eq_succ_of_ne_zero (Nat.ne_of_gt hf)
    obtain ⟨g, rfl⟩ := Nat.exists_eq_succ_of_ne_zero (Nat.ne_of_gt hg)
    rfl
  | succ n ih =>
    intro fields w f g hn hf hg
    obtain ⟨f, rfl⟩ := Nat.exists_eq_succ_of_ne_zero (Nat.ne_of_gt (Nat.zero_lt_of_lt hf))
    obtain ⟨g, rfl⟩ := Nat.exists_eq_succ_of_ne_zero (Nat.ne_of_gt (Nat.zero_lt_of_lt hg))
    have hfield : parseField (parseLoop f) fields w = parseField (parseLoop g) fields w :=
      parseField_congr fields w fun fields content hlt =>
        ih fields content f g (by omega) (by omega) (by omega)
    rw [parseLoop, parseLoop, hfield]
    rcases hst : parseField (parseLoop g) fields w with ⟨whole, entered⟩ | ⟨node, rest⟩
    · rfl
    · have hlt := parseField_length hst
      simp only [ih fields rest f g (by omega) (by omega) (by omega)]

lemma parseLoop_eq_parse {fields : List PbField} {w : List UInt8} {fuel : ℕ}
    (h : w.length < fuel) : parseLoop fuel fields w = parse fields w :=
  parseLoop_fuel w.length fields w fuel (w.length + 1) (Nat.le_refl _) h (Nat.lt_succ_self _)

/-- **The fields of a message, without fuel.** -/
theorem parse_eq (fields : List PbField) (w : List UInt8) : parse fields w =
    match parseField parse fields w with
    | .stop whole entered => ⟨entered.map fun node => (w, node), whole⟩
    | .field node rest =>
      ⟨(w.take (w.length - rest.length), node) :: (parse fields rest).items,
        (parse fields rest).whole⟩ := by
  have hfield : parseField (parseLoop w.length) fields w = parseField parse fields w :=
    parseField_congr fields w fun fields content hlt => parseLoop_eq_parse hlt
  rw [parse, parseLoop, hfield]
  rcases hst : parseField parse fields w with ⟨whole, entered⟩ | ⟨node, rest⟩
  · rfl
  · simp only [parseLoop_eq_parse (parseField_length hst)]

/-- **Decoding stores the fields on the wire**, and succeeds exactly for well-formed bytes. -/
theorem pbDecode_follows (fields : List PbField) (w : List UInt8) :
    Leaves (fun stream => pbDecode stream fields .zero) w
      (storeAll (parse fields w).nodes .zero) (parse fields w).whole := by
  have h := noinitLoop_follows (w.length + 1) fields .zero w
  simp only [pbDecode, pbDecodeNoinit, defaults_zero]
  exact h

end RoombaBrain.PbFollow
