import RoombaBrain.PbMerge
import RoombaBrain.PbSame

/-!
The decoder keeps to its window and to its struct.

Whatever the bytes are, decoding comes to an end, takes no byte from outside the window, and
stores only into the cells that the table names. It fails with one of a few texts.
-/

namespace RoombaBrain.PbSafe

open RoombaBrain.ByteReader RoombaBrain.PbStream RoombaBrain.PbDecode RoombaBrain.PbFields
  RoombaBrain.PbMerge RoombaBrain.PbSame

def decodeErrors : List String :=
  ["end-of-stream", "varint overflow", "invalid wire_type", "parent stream too short",
    "integer too large", "invalid data_size"]

/-! ### Readers -/

lemma pbRead_careful (count : ℕ) : Careful decodeErrors (pbRead count) where
  takes {s t buf} hs h := by
    unfold pbRead at h
    split at h
    · cases h
    · next hlen =>
      rw [bufRead, if_pos (by simp only [Window.Inside] at hs; omega)] at h
      cases h
      exact ⟨count, Nat.not_lt.mp hlen, rfl⟩
  fails {s e} hs h := by
    unfold pbRead at h
    split at h
    · cases h
      simp [decodeErrors]
    · next hlen =>
      rw [bufRead, if_pos (by simp only [Window.Inside] at hs; omega)] at h
      cases h

lemma pbReadbyte_takes {s t : PbIstream} {byte : UInt8} (h : pbReadbyte s = .ok (byte, t)) :
    s.Rest t ∧ t.bytesLeft < s.bytesLeft := by
  unfold pbReadbyte at h
  split at h
  · cases h
  · next hleft =>
    rcases hstate : s.state with _ | ⟨b, state⟩ <;> rw [hstate] at h
    · cases h
    · cases h
      refine ⟨⟨1, Nat.pos_of_ne_zero hleft, ?_⟩, Nat.sub_lt (Nat.pos_of_ne_zero hleft) Nat.one_pos⟩
      rw [hstate]
      rfl

lemma pbReadbyte_careful : Careful decodeErrors pbReadbyte where
  takes _ h := (pbReadbyte_takes h).1
  fails {s e} hs h := by
    unfold pbReadbyte at h
    split at h
    · cases h
      simp [decodeErrors]
    · next hleft =>
      rcases hstate : s.state with _ | ⟨b, state⟩ <;> rw [hstate] at h
      · -- the window would not lie in the memory
        simp only [Window.Inside, hstate, List.length_nil, Nat.le_zero] at hs
        exact absurd hs hleft
      · cases h

lemma varint32Digit_fails {bitpos : ℕ} {result : UInt32} {byte : UInt8} {e : String}
    (h : varint32Digit bitpos result byte = .error e) : e ∈ decodeErrors := by
  unfold varint32Digit at h
  split at h
  · extract_lets signExtension at h
    split at h
    · cases h
      simp [decodeErrors]
    · cases h
  · cases h

lemma varint32Loop_careful (n bitpos : ℕ) (result : UInt32) :
    Careful decodeErrors (varint32Loop n bitpos result) := by
  induction n generalizing bitpos result with
  | zero => exact .fail (by simp [decodeErrors])
  | succ n ih =>
    refine pbReadbyte_careful.bind fun byte => ?_
    split
    · next e he => exact .fail (varint32Digit_fails he)
    · split
      · exact ih _ _
      · split
        · exact .fail (by simp [decodeErrors])
        · exact .pure _

lemma varint32Rest_careful (byte : UInt8) : Careful decodeErrors (varint32Rest byte) := by
  refine Careful.of_window (g := fun s =>
    if byte &&& 0x80 = 0 then pure byte.toUInt32
    else varint32Loop s.bytesLeft 7 (byte &&& 0x7F).toUInt32) (fun s => ?_) fun s => ?_
  · split
    · exact .pure _
    · exact varint32Loop_careful _ _ _
  · unfold varint32Rest
    split <;> rfl

lemma pbDecodeVarint32Eof_careful : Careful decodeErrors pbDecodeVarint32Eof := by
  refine Careful.of_window (g := fun s =>
    if s.bytesLeft = 0 then pure none
    else do
      let byte ← pbReadbyte
      let result ← varint32Rest byte
      pure (some result)) (fun s => ?_) fun s => ?_
  · split
    · exact .pure _
    · exact pbReadbyte_careful.bind fun byte => (varint32Rest_careful byte).bind fun _ => .pure _
  · unfold pbDecodeVarint32Eof
    by_cases hleft : s.bytesLeft = 0
    · have hbyte : pbReadbyte s = .error "end-of-stream" := by rw [pbReadbyte, if_pos hleft]
      simp only [hbyte, if_pos hleft]
      rfl
    · simp only [if_neg hleft]
      rcases hbyte : pbReadbyte s with e | ⟨byte, t⟩
      · rw [bind_error hbyte]
      · rw [bind_ok hbyte]
        rcases hrest : varint32Rest byte t with e | ⟨result, u⟩
        · rw [bind_error hrest]
          simp only [hrest]
        · rw [bind_ok hrest]
          simp only [hrest]
          rfl

lemma pbDecodeVarint32_careful : Careful decodeErrors pbDecodeVarint32 := by
  refine pbDecodeVarint32Eof_careful.bind fun result => ?_
  cases result with
  | none => exact .fail (by simp [decodeErrors])
  | some result => exact .pure _

lemma varintLoop_careful (k bitpos : ℕ) (result : UInt64) :
    Careful decodeErrors (varintLoop k bitpos result) := by
  induction k generalizing bitpos result with
  | zero => exact .fail (by simp [decodeErrors])
  | succ k ih =>
    unfold varintLoop
    split
    · exact .fail (by simp [decodeErrors])
    · refine pbReadbyte_careful.bind fun byte => ?_
      split
      · exact ih _ _
      · exact .pure _

lemma pbDecodeVarint_careful : Careful decodeErrors pbDecodeVarint := varintLoop_careful 10 0 0

lemma pbDecodeTag_careful : Careful decodeErrors pbDecodeTag := by
  refine pbDecodeVarint32Eof_careful.bind fun temp => ?_
  cases temp with
  | none => exact .pure _
  | some temp =>
    show Careful decodeErrors (if temp = 0 then pure none else pure (some (_, _)))
    split
    · exact .pure _
    · exact .pure _

lemma skipVarintLoop_careful (n : ℕ) : Careful decodeErrors (skipVarintLoop n) := by
  induction n with
  | zero => exact .fail (by simp [decodeErrors])
  | succ n ih =>
    refine pbReadbyte_careful.bind fun byte => ?_
    split
    · exact ih
    · exact .pure _

lemma pbSkipField_careful (wireType : ℕ) : Careful decodeErrors (pbSkipField wireType) := by
  unfold pbSkipField
  split
  · exact .of_window (fun s => skipVarintLoop_careful s.bytesLeft) fun s => rfl
  · exact (pbRead_careful 8).bind fun _ => .pure _
  · exact pbDecodeVarint32_careful.bind fun length =>
      (pbRead_careful length.toNat).bind fun _ => .pure _
  · exact (pbRead_careful 4).bind fun _ => .pure _
  · exact .fail (by simp [decodeErrors])

lemma pbDecodeTag_lt {s t : PbIstream} {key : ℕ × ℕ} (h : pbDecodeTag s = .ok (some key, t))
    (hs : s.Inside) : t.bytesLeft < s.bytesLeft := by
  have heof : ∃ temp, pbDecodeVarint32Eof s = .ok (some temp, t) := by
    rcases hr : pbDecodeVarint32Eof s with e | ⟨_ | temp, u⟩
    · rw [pbDecodeTag, bind_error hr] at h
      cases h
    · rw [pbDecodeTag, bind_ok hr] at h
      cases h
    · rw [pbDecodeTag, bind_ok hr] at h
      by_cases hzero : temp = 0
      · simp only [hzero, if_true, pure_eq] at h
        cases h
      · simp only [hzero, if_false, pure_eq] at h
        cases h
        exact ⟨temp, rfl⟩
  obtain ⟨temp, heof⟩ := heof
  unfold pbDecodeVarint32Eof at heof
  rcases hbyte : pbReadbyte s with e | ⟨byte, u⟩
  · rw [hbyte] at heof
    simp only at heof
    split at heof <;> cases heof
  · rw [hbyte] at heof
    obtain ⟨hu, hlt⟩ := pbReadbyte_takes hbyte
    simp only at heof
    rcases hrest : varint32Rest byte u with e | ⟨result, v⟩
    · rw [hrest] at heof
      cases heof
    · rw [hrest] at heof
      cases heof
      exact Nat.lt_of_le_of_lt ((varint32Rest_careful byte).takes (hu.inside hs) hrest).le hlt

/-! ### Cells -/

/-- The field names the cell: a number names its own, a submessage those that its table names, and
a member of the oneof the `which_` field and all cells of the member, which is zeroed as a whole. -/
def fieldNames : PbField → List ℕ → ℕ → Prop
  | .uint32 tag, route, slot => route = [] ∧ slot = tag
  | .message tag fields, route, slot => ∃ rest, route = tag :: rest ∧ names fields rest slot
  | .oneof tag _, route, slot => route = [] ∧ slot = 0 ∨ ∃ rest, route = tag :: rest
  | .callback _, _, _ | .last, _, _ => False
where
  names : List PbField → List ℕ → ℕ → Prop
    | [], _, _ => False
    | field :: fields, route, slot => fieldNames field route slot ∨ names fields route slot

abbrev Names := fieldNames.names

variable {fields : List PbField}

lemma names_iff {route : List ℕ} {slot : ℕ} :
    Names fields route slot ↔ ∃ field ∈ fields, fieldNames field route slot := by
  induction fields with
  | nil => simp [fieldNames.names]
  | cons field fields ih => simp [fieldNames.names, ih]

def Keeps (named : List ℕ → ℕ → Prop) (d d' : PbStruct) : Prop :=
  ∀ route slot, ¬ named route slot → d' route slot = d route slot

section
variable {named named' : List ℕ → ℕ → Prop} {d d' d'' : PbStruct}

lemma Keeps.refl (named : List ℕ → ℕ → Prop) (d : PbStruct) : Keeps named d d :=
  fun _ _ _ => rfl

lemma Keeps.trans (h : Keeps named d d') (h' : Keeps named d' d'') : Keeps named d d'' :=
  fun route slot hnot => (h' route slot hnot).trans (h route slot hnot)

lemma Keeps.mono (h : Keeps named d d') (hle : ∀ route slot, named route slot → named' route slot) :
    Keeps named' d d' := fun route slot hnot => h route slot fun hn => hnot (hle route slot hn)

lemma keeps_setNum (d : PbStruct) (tag : ℕ) (v : UInt32) :
    Keeps (fun route slot => route = [] ∧ slot = tag) d (d.setNum tag v) := by
  intro route slot hnot
  cases route with
  | nil =>
    have hne : slot ≠ tag := fun he => hnot ⟨rfl, he⟩
    simp [PbStruct.setNum, hne]
  | cons t route => rfl

lemma keeps_setSub {tag : ℕ} {s : PbStruct} (h : Keeps named (d.sub tag) s) :
    Keeps (fun route slot => ∃ rest, route = tag :: rest ∧ named rest slot) d (d.setSub tag s) := by
  intro route slot hnot
  cases route with
  | nil => rfl
  | cons t route =>
    by_cases ht : t = tag
    · subst ht
      have hkept := h route slot fun hn => hnot ⟨route, rfl, hn⟩
      simpa [PbStruct.setSub, PbStruct.sub] using hkept
    · simp [PbStruct.setSub, ht]

end

lemma default_keeps (field : PbField) :
    ∀ d, Keeps (fieldNames field) d (pbFieldSetToDefault field d) := by
  have hall : ∀ fields : List PbField,
      (∀ f ∈ fields, ∀ d, Keeps (fieldNames f) d (pbFieldSetToDefault f d)) →
        ∀ d, Keeps (Names fields) d (pbMessageSetToDefaults fields d) := by
    intro fields hfields
    induction fields with
    | nil => exact fun d => .refl _ d
    | cons f fields ih =>
      intro d
      have hfirst := hfields f (by simp) d
      have hrest := ih (fun g hg => hfields g (by simp [hg])) (pbFieldSetToDefault f d)
      exact (hfirst.mono fun _ _ => Or.inl).trans (hrest.mono fun _ _ => Or.inr)
  induction field using fieldInduction with
  | uint32 tag => exact fun d => keeps_setNum d tag 0
  | message tag fields ih => exact fun d => keeps_setSub (hall fields ih (d.sub tag))
  | oneof tag fields ih => exact fun d => (keeps_setNum d 0 0).mono fun _ _ => Or.inl
  | callback tag => exact fun d => .refl _ d
  | last => exact fun d => .refl _ d

lemma defaults_keep (fields : List PbField) (d : PbStruct) :
    Keeps (Names fields) d (pbMessageSetToDefaults fields d) := by
  induction fields generalizing d with
  | nil => exact .refl _ d
  | cons f fields ih =>
    have hrest := ih (pbFieldSetToDefault f d)
    exact ((default_keeps f d).mono fun _ _ => Or.inl).trans (hrest.mono fun _ _ => Or.inr)

/-! ### Decoders -/

/-- Decoding from the stream into the struct went well enough: it goes on in the window or fails
with one of the texts, and has stored into the named cells only. -/
structure Safely (named : List ℕ → ℕ → Prop) (dest : PbStruct) (stream : PbIstream)
    (r : Decoded) : Prop where
  takes : ∀ t, r.2 = .ok t → stream.Rest t
  fails : ∀ e, r.2 = .error e → e ∈ decodeErrors
  keeps : Keeps named dest r.1

lemma Safely.error {named : List ℕ → ℕ → Prop} {dest : PbStruct} {stream : PbIstream}
    {e : String} (he : e ∈ decodeErrors) : Safely named dest stream (dest, .error e) where
  takes _ h := by cases h
  fails _ h := by
    cases h
    exact he
  keeps := .refl _ _

lemma Safely.ok {named : List ℕ → ℕ → Prop} {dest : PbStruct} {stream t : PbIstream}
    (h : stream.Rest t) : Safely named dest stream (dest, .ok t) where
  takes _ h' := by
    cases h'
    exact h
  fails _ h' := by cases h'
  keeps := .refl _ _

def SafeBelow (fuel : ℕ) (noinit : List PbField → Decoder) : Prop :=
  ∀ fields dest stream, stream.Inside → stream.bytesLeft < fuel →
    Safely (Names fields) dest stream (noinit fields dest stream)

lemma pbDecUvarint_safely (tag : ℕ) (dest : PbStruct) {stream : PbIstream} (hs : stream.Inside) :
    Safely (fieldNames (.uint32 tag)) dest stream (pbDecUvarint tag dest stream) := by
  unfold pbDecUvarint
  rcases hr : pbDecodeVarint stream with e | ⟨value, t⟩
  · exact .error (pbDecodeVarint_careful.fails hs hr)
  · refine ⟨fun u hu => ?_, fun e he => ?_, keeps_setNum dest tag _⟩
    · simp only at hu
      split at hu
      · cases hu
      · cases hu
        exact pbDecodeVarint_careful.takes hs hr
    · simp only at he
      split at he
      · cases he
        simp [decodeErrors]
      · cases he

lemma pbDecVarint_safely (dest : PbStruct) {stream : PbIstream} (hs : stream.Inside) :
    Safely (fieldNames .last) dest stream (pbDecVarint dest stream) := by
  unfold pbDecVarint
  rcases hr : pbDecodeVarint stream with e | ⟨value, t⟩
  · exact .error (pbDecodeVarint_careful.fails hs hr)
  · exact .error (by simp [decodeErrors])

lemma decodeCallbackField_safely (wireType : ℕ) (named : List ℕ → ℕ → Prop) (dest : PbStruct)
    {stream : PbIstream} (hs : stream.Inside) :
    Safely named dest stream (decodeCallbackField wireType dest stream) := by
  unfold decodeCallbackField
  rcases hr : pbSkipField wireType stream with e | ⟨u, t⟩
  · exact .error ((pbSkipField_careful wireType).fails hs hr)
  · exact .ok ((pbSkipField_careful wireType).takes hs hr)

/-- Closing a substream goes on behind it in the parent. -/
lemma close_rest {s sub : PbIstream} {size : ℕ} (hs : s.Inside) (hsize : size ≤ s.bytesLeft)
    (hsub : (⟨s.state, size⟩ : PbIstream).Rest sub) :
    pbCloseStringSubstream ⟨s.state, s.bytesLeft - size⟩ sub =
      .ok ⟨s.state.drop size, s.bytesLeft - size⟩ := by
  obtain ⟨k, hk, rfl⟩ := hsub
  have hk : k ≤ size := hk
  unfold pbCloseStringSubstream
  by_cases hleft : size - k = 0
  · have hsame : k = size := by omega
    subst hsame
    simp
  · have hinside : size - k ≤ (s.state.drop k).length := by
      simp only [Window.Inside] at hs
      rw [List.length_drop]
      omega
    have hdrop : k + (size - k) = size := by omega
    have hread : pbRead (size - k) ⟨s.state.drop k, size - k⟩ =
        .ok ((s.state.drop k).take (size - k), ⟨s.state.drop size, 0⟩) := by
      unfold pbRead
      rw [if_neg (Nat.lt_irrefl _), bufRead, if_pos hinside]
      simp only [List.drop_drop, hdrop, Nat.sub_self]
    simp only [ne_eq, hleft, not_false_eq_true, if_true, hread]

lemma pbDecSubmessage_safely {fuel : ℕ} {noinit : List PbField → Decoder}
    (hin : SafeBelow fuel noinit) (fields : List PbField) (dest : PbStruct) {stream : PbIstream}
    (hs : stream.Inside) (hfuel : stream.bytesLeft < fuel) :
    Safely (Names fields) dest stream (pbDecSubmessage (noinit fields) dest stream) := by
  unfold pbDecSubmessage pbMakeStringSubstream
  rcases hr : pbDecodeVarint32 stream with e | ⟨size, t⟩
  · exact .error (pbDecodeVarint32_careful.fails hs hr)
  have hrest := pbDecodeVarint32_careful.takes hs hr
  have ht := hrest.inside hs
  by_cases hsize : t.bytesLeft < size.toNat
  · simp only [if_pos hsize]
    exact .error (by simp [decodeErrors])
  simp only [if_neg hsize]
  have hle := hrest.le
  have hinside : (⟨t.state, size.toNat⟩ : PbIstream).Inside := by
    simp only [Window.Inside] at ht ⊢
    omega
  have hsub := hin fields dest ⟨t.state, size.toNat⟩ hinside (by
    show size.toNat < fuel
    omega)
  rcases hd : noinit fields dest ⟨t.state, size.toNat⟩ with ⟨d, e | sub⟩
  · rw [hd] at hsub
    exact ⟨fun _ h => (by cases h), fun _ h => hsub.fails _ h, hsub.keeps⟩
  · rw [hd] at hsub
    have hclose := close_rest ht (Nat.not_lt.mp hsize) (hsub.takes sub rfl)
    simp only [hclose]
    refine ⟨fun u hu => ?_, fun _ h => (by cases h), hsub.keeps⟩
    cases hu
    exact hrest.trans ⟨size.toNat, Nat.not_lt.mp hsize, rfl⟩

lemma decodeField_safely {fuel : ℕ} {noinit : List PbField → Decoder}
    (hin : SafeBelow fuel noinit) (wireType : ℕ) (field : PbField) (dest : PbStruct)
    {stream : PbIstream} (hs : stream.Inside) (hfuel : stream.bytesLeft < fuel) :
    Safely (fieldNames field) dest stream (decodeField noinit wireType field dest stream) := by
  cases field with
  | uint32 tag => exact pbDecUvarint_safely tag dest hs
  | message tag fields =>
    have hsub := pbDecSubmessage_safely hin fields (dest.sub tag) hs hfuel
    exact ⟨hsub.takes, hsub.fails, keeps_setSub hsub.keeps⟩
  | oneof tag fields =>
    have hsub := pbDecSubmessage_safely hin fields (pbMessageSetToDefaults fields .zero) hs hfuel
    have hmember : Keeps (fun route _ => ∃ rest, route = tag :: rest ∧ True)
        (dest.setNum 0 tag.toUInt32) ((dest.setNum 0 tag.toUInt32).setSub tag
          (pbDecSubmessage (noinit fields) (pbMessageSetToDefaults fields .zero) stream).1) :=
      keeps_setSub fun _ _ h => absurd trivial h
    have hwhich : Keeps (fieldNames (.oneof tag fields)) dest (dest.setNum 0 tag.toUInt32) :=
      (keeps_setNum dest 0 tag.toUInt32).mono fun _ _ => Or.inl
    exact ⟨hsub.takes, hsub.fails,
      hwhich.trans (hmember.mono fun _ _ ⟨rest, hroute, _⟩ => Or.inr ⟨rest, hroute⟩)⟩
  | callback tag => exact decodeCallbackField_safely wireType _ dest hs
  | last => exact pbDecVarint_safely dest hs

/-- A decoder that goes on where another one stopped. -/
lemma Safely.trans {named : List ℕ → ℕ → Prop} {dest d : PbStruct} {stream t : PbIstream}
    {r : Decoded} (hrest : stream.Rest t) (hkeeps : Keeps named dest d)
    (h : Safely named d t r) : Safely named dest stream r :=
  ⟨fun u hu => hrest.trans (h.takes u hu), h.fails, hkeeps.trans h.keeps⟩

lemma noinitLoop_safe (fuel : ℕ) : SafeBelow fuel (noinitLoop fuel) := by
  induction fuel with
  | zero => exact fun _ _ _ _ h => absurd h (Nat.not_lt_zero _)
  | succ fuel ih =>
    intro fields dest stream hs hfuel
    unfold noinitLoop
    by_cases hend : stream.bytesLeft = 0
    · rw [if_pos hend]
      exact .ok (.refl _)
    rw [if_neg hend]
    rcases htag : pbDecodeTag stream with e | ⟨_ | ⟨wireType, tag⟩, t⟩
    · exact .error (pbDecodeTag_careful.fails hs htag)
    · exact .ok (pbDecodeTag_careful.takes hs htag)
    have hrest := pbDecodeTag_careful.takes hs htag
    have hlt := pbDecodeTag_lt htag hs
    have ht := hrest.inside hs
    simp only
    rcases hfind : pbFieldIterFind fields tag with _ | field
    · have hskip := pbSkipField_careful wireType
      simp only
      rcases hr : pbSkipField wireType t with e | ⟨u, v⟩
      · exact .error (hskip.fails ht hr)
      · have hv := hskip.takes ht hr
        have hle := hv.le
        exact .trans (hrest.trans hv) (.refl _ _)
          (ih fields dest v (hv.inside ht) (by omega))
    · have hnames : ∀ route slot, fieldNames field route slot → Names fields route slot := by
        intro route slot hname
        rcases pbFieldIterFind_mem hfind with rfl | hmem
        · exact hname.elim
        · exact names_iff.mpr ⟨field, hmem, hname⟩
      have hfield := decodeField_safely ih wireType field dest ht (by omega)
      simp only
      rcases hr : decodeField (noinitLoop fuel) wireType field dest t with ⟨d, e | v⟩
      · rw [hr] at hfield
        exact ⟨fun _ h => (by cases h), fun _ h => hfield.fails _ h, hfield.keeps.mono hnames⟩
      · rw [hr] at hfield
        have hv := hfield.takes v rfl
        have hle := hv.le
        exact .trans (hrest.trans hv) (hfield.keeps.mono hnames)
          (ih fields d v (hv.inside ht) (by omega))

/-- **Decoding is safe**, whatever the bytes are and whatever table there is: it ends, takes no byte
from outside the window, fails with one of the texts, and stores into the cells of its table only.
What it stores, and whether it succeeds, the bytes of the window decide alone. -/
theorem decode_safe (fields : List PbField) (dest : PbStruct) (stream : PbIstream)
    (h : stream.Inside) :
    Safely (Names fields) dest stream (pbDecode stream fields dest) ∧
      ∀ stream' : PbIstream, stream'.Inside → stream'.bytes = stream.bytes →
        (pbDecode stream' fields dest).1 = (pbDecode stream fields dest).1 ∧
          (pbDecode stream' fields dest).2.isOk = (pbDecode stream fields dest).2.isOk := by
  constructor
  · have hloop := noinitLoop_safe (stream.bytesLeft + 1) fields
      (pbMessageSetToDefaults fields dest) stream h (Nat.lt_succ_self _)
    exact .trans (.refl _) (defaults_keep fields dest) hloop
  · intro stream' h' hbytes
    have hon := noinit_on fields (pbMessageSetToDefaults fields dest) stream.bytes
    obtain ⟨hstruct, hok⟩ := hon (stream.state.drop stream.bytesLeft)
    obtain ⟨hstruct', hok'⟩ := hon (stream'.state.drop stream'.bytesLeft)
    rw [← h.eq_on] at hstruct hok
    rw [← hbytes, ← h'.eq_on] at hstruct' hok'
    rw [hbytes] at hstruct' hok'
    exact ⟨hstruct'.trans hstruct.symm, hok'.trans hok.symm⟩

/-- A submessage that claims more bytes than there are in the window, though not in the memory. -/
theorem decode_safe_short : ∃ e ∈ decodeErrors,
    (pbDecode ⟨[0x12, 0x7F, 0x08, 0x05, 0x08, 0x06], 4⟩ [.message 2 [.uint32 1]] .zero).2 =
      .error e :=
  ⟨_, (decode_safe [.message 2 [.uint32 1]] .zero ⟨[0x12, 0x7F, 0x08, 0x05, 0x08, 0x06], 4⟩
    (by simp [Window.Inside])).1.fails _ rfl, rfl⟩

end RoombaBrain.PbSafe
