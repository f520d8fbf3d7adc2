import RoombaBrain.PbMerge
import RoombaBrain.PbSame

/-!
What a reader enters of what was written.

A struct is encoded by the table of a writer and decoded by the table of a reader, which may be an
older one: the writer knows every field of the reader. The fields that both know are entered with
their values, and the others are skipped.
-/

namespace RoombaBrain.PbEntered

open RoombaBrain.ByteReader RoombaBrain.PbStream RoombaBrain.PbLocal RoombaBrain.PbDecode
  RoombaBrain.PbMessage RoombaBrain.PbFollow RoombaBrain.PbFields RoombaBrain.Varint
  RoombaBrain.PbVarint RoombaBrain.PbVarint32 RoombaBrain.PbEncode RoombaBrain.PbWire
  RoombaBrain.PbMerge RoombaBrain.PbSame

/-! ### Reader and writer -/

/-- The writer knows the field: its table has one of the same kind under the number, with a
submessage whose fields it knows. A callback field asks for nothing. -/
def fieldKnown : List PbField → PbField → Bool
  | writer, .uint32 tag =>
    match pbFieldIterFind writer tag with
    | some (.uint32 _) => true
    | _ => false
  | writer, .message tag fields =>
    match pbFieldIterFind writer tag with
    | some (.message _ entries) => allKnown entries fields
    | _ => false
  | writer, .oneof tag fields =>
    match pbFieldIterFind writer tag with
    | some (.oneof _ entries) => allKnown entries fields
    | _ => false
  | _, .callback _ | _, .last => true
where
  allKnown : List PbField → List PbField → Bool
    | _, [] => true
    | writer, field :: fields => fieldKnown writer field && allKnown writer fields

abbrev Known (writer reader : List PbField) : Prop :=
  ∀ field ∈ reader, fieldKnown writer field = true

lemma allKnown_iff {writer reader : List PbField} :
    fieldKnown.allKnown writer reader = true ↔ Known writer reader := by
  induction reader with
  | nil => simp [fieldKnown.allKnown, Known]
  | cons field reader ih => simp [fieldKnown.allKnown, Known, ih]

inductive Entry : PbField → PbField → Prop
  | callback (tag field) : Entry (.callback tag) field
  | uint32 (tag) : Entry (.uint32 tag) (.uint32 tag)
  | message {tag entries fields} (h : Known fields entries) :
      Entry (.message tag entries) (.message tag fields)
  | oneof {tag entries fields} (h : Known fields entries) :
      Entry (.oneof tag entries) (.oneof tag fields)

variable {writer reader : List PbField}

lemma known_uint32 {tag : ℕ} (h : fieldKnown writer (.uint32 tag) = true) :
    pbFieldIterFind writer tag = some (.uint32 tag) := by
  simp only [fieldKnown] at h
  split at h
  · next t hfind =>
    obtain rfl : t = tag := pbFieldIterFind_tag hfind
    exact hfind
  · cases h

lemma known_message {tag : ℕ} {entries : List PbField}
    (h : fieldKnown writer (.message tag entries) = true) :
    ∃ fields, pbFieldIterFind writer tag = some (.message tag fields) ∧ Known fields entries := by
  simp only [fieldKnown] at h
  split at h
  · next t fields hfind =>
    obtain rfl : t = tag := pbFieldIterFind_tag hfind
    exact ⟨fields, hfind, allKnown_iff.mp h⟩
  · cases h

lemma known_oneof {tag : ℕ} {entries : List PbField}
    (h : fieldKnown writer (.oneof tag entries) = true) :
    ∃ fields, pbFieldIterFind writer tag = some (.oneof tag fields) ∧ Known fields entries := by
  simp only [fieldKnown] at h
  split at h
  · next t fields hfind =>
    obtain rfl : t = tag := pbFieldIterFind_tag hfind
    exact ⟨fields, hfind, allKnown_iff.mp h⟩
  · cases h

lemma entry_of_find (hwriter : TableOk writer) (hknown : Known writer reader) {field : PbField}
    (hmem : field ∈ writer) {entry : PbField}
    (hfind : pbFieldIterFind reader field.tag = some entry) : Entry entry field := by
  have htag := pbFieldIterFind_tag hfind
  have hfield := hwriter.find hmem
  have h0 := (tag_of_ok (hwriter.all field hmem)).1
  rcases pbFieldIterFind_mem hfind with rfl | hentry
  · exact absurd htag (Nat.ne_of_lt h0)
  have hk := hknown entry hentry
  rw [← htag] at hfield
  cases entry with
  | uint32 tag =>
    rw [PbField.tag, known_uint32 hk, Option.some.injEq] at hfield
    exact hfield ▸ .uint32 tag
  | message tag entries =>
    obtain ⟨fields, hfound, hfields⟩ := known_message hk
    rw [PbField.tag, hfound, Option.some.injEq] at hfield
    exact hfield ▸ .message hfields
  | oneof tag entries =>
    obtain ⟨fields, hfound, hfields⟩ := known_oneof hk
    rw [PbField.tag, hfound, Option.some.injEq] at hfield
    exact hfield ▸ .oneof hfields
  | callback tag => exact .callback tag field
  | last => exact absurd htag (Nat.ne_of_lt h0)

/-! ### The fields entered -/

def fieldNodes : List PbField → PbField → PbStruct → List Node
  | reader, .uint32 tag, src =>
    if pbCheckProto3DefaultValue (.uint32 tag) src then []
    else match pbFieldIterFind reader tag with
      | some (.uint32 _) => [.uint32 tag (src.num tag)]
      | _ => [.skipped tag]
  | reader, .message tag fields, src =>
    if pbCheckProto3DefaultValue (.message tag fields) src then []
    else match pbFieldIterFind reader tag with
      | some (.message _ entries) => [.message false tag (nodes entries fields (src.sub tag))]
      | _ => [.skipped tag]
  | reader, .oneof tag fields, src =>
    if src.num 0 = tag.toUInt32 then
      match pbFieldIterFind reader tag with
      | some (.oneof _ entries) => [.message true tag (nodes entries fields (src.sub tag))]
      | _ => [.skipped tag]
    else []
  | _, .callback _, _ | _, .last, _ => []
where
  nodes : List PbField → List PbField → PbStruct → List Node
    | _, [], _ => []
    | reader, field :: fields, src => fieldNodes reader field src ++ nodes reader fields src

abbrev nodes := fieldNodes.nodes

lemma skip_varint (n : ℕ) (hn : n < 2 ^ 32) : Reads (pbSkipField 0) (varint n) () :=
  (skipVarint_reads_iff _).mpr (varintDigits_spec 10 (by omega) (by omega)).1

lemma skip_delimited {content : List UInt8} (h : content.length < 2 ^ 32) :
    Reads (pbSkipField 2) (delimited content) () := by
  have hsize : content.length.toUInt32.toNat = content.length := by
    simp only [Nat.toUInt32, UInt32.toNat_ofNat']
    omega
  refine (varint32_reads_varint h).bind ?_
  rw [hsize]
  have hread := (pbRead_reads content).bind (g := fun _ => (pure () : Reader Unit))
    (Reads.pure ())
  rwa [List.append_nil] at hread

lemma enters_submessage {tag : ℕ} {oneof : Bool} {entries : List PbField} {content : List UInt8}
    (hbody : bodyReader parse (pbFieldIterFind reader tag) 2 tag = do
      let content ← contentReader
      pure ((parse entries content).whole, .message oneof tag (parse entries content).nodes))
    (ht : 0 < tag) (ht' : tag < 2 ^ 29) (hsize : content.length < 2 ^ 32) {inner : List Node}
    (hin : Enters entries content inner) :
    Enters reader (key 2 tag ++ delimited content) [.message oneof tag inner] := by
  obtain ⟨hnodes, hwhole⟩ := hin.alone
  have hread := (delimited_reads hsize).bind (g := fun content =>
    (pure ((parse entries content).whole, Node.message oneof tag (parse entries content).nodes) :
      Reader (Bool × Node))) (Reads.pure _)
  rw [List.append_nil, hnodes, hwhole] at hread
  apply enters_field (key_reads (by omega) ht ht')
  rw [hbody]
  exact hread

lemma enters_number {tag : ℕ} (hfind : pbFieldIterFind reader tag = some (.uint32 tag))
    (ht : 0 < tag) (ht' : tag < 2 ^ 29) (v : UInt32) :
    Enters reader (key 0 tag ++ varint v.toNat) [.uint32 tag v] := by
  have hlt := v.toNat_lt
  have hbody := uint32_reads parse (v := v.toNat) (by omega) 0 tag tag
  have hvalue : v.toNat.toUInt32 = v := by
    rw [← UInt32.toNat_inj]
    simp only [Nat.toUInt32, UInt32.toNat_ofNat']
    omega
  rw [decide_eq_true hlt, ← hfind, hvalue] at hbody
  exact enters_field (key_reads (by omega) ht ht') hbody

/-! ### Fields that the reader has no use for -/

/-- There is no entry for the number, or one for a callback, which is not set. -/
def Unused (reader : List PbField) (tag : ℕ) : Prop :=
  pbFieldIterFind reader tag = none ∨ pbFieldIterFind reader tag = some (.callback tag)

/-- The reader has no use for the field, or an entry of the same kind. -/
lemma unused_or {field : PbField}
    (h : ∀ e, pbFieldIterFind reader field.tag = some e → Entry e field) :
    Unused reader field.tag ∨ ∃ e, pbFieldIterFind reader field.tag = some e ∧ Entry e field ∧
      ∀ tag, e ≠ .callback tag := by
  rcases hfind : pbFieldIterFind reader field.tag with _ | e
  · exact Or.inl (Or.inl hfind)
  · have htag := pbFieldIterFind_tag hfind
    by_cases hcall : ∃ tag, e = .callback tag
    · obtain ⟨tag, rfl⟩ := hcall
      obtain rfl : tag = field.tag := htag
      exact Or.inl (Or.inr hfind)
    · exact Or.inr ⟨e, rfl, h e hfind, fun tag he => hcall ⟨tag, he⟩⟩

lemma length_lt_of_submessage {tag : ℕ} {content : List UInt8}
    (h : (key 2 tag ++ delimited content).length < 2 ^ 32) : content.length < 2 ^ 32 := by
  have hle := length_le_delimited content
  rw [List.length_append] at h
  omega

/-- A field that is written has a key and a value that can be skipped. -/
lemma unused_wire (field : PbField) {src : PbStruct} (h : Unused reader field.tag)
    (hsize : (fieldWire field src).length < 2 ^ 32) :
    (fieldWire field src = [] ∧ fieldNodes reader field src = []) ∨
      ∃ wireType d, wireType < 8 ∧ Reads (pbSkipField wireType) d () ∧
        fieldWire field src = key wireType field.tag ++ d ∧
        fieldNodes reader field src = [.skipped field.tag] := by
  cases field with
  | uint32 tag =>
    simp only [fieldWire, fieldNodes]
    split
    · exact Or.inl ⟨rfl, rfl⟩
    · refine Or.inr ⟨0, _, by omega, skip_varint _ (src.num tag).toNat_lt, rfl, ?_⟩
      rcases h with h | h <;> rw [PbField.tag] at h <;> simp only [h, PbField.tag]
  | message tag fields =>
    simp only [fieldWire, fieldNodes] at hsize ⊢
    by_cases hdef : pbCheckProto3DefaultValue (.message tag fields) src = true
    · rw [if_pos hdef, if_pos hdef]
      exact Or.inl ⟨rfl, rfl⟩
    · rw [if_neg hdef] at hsize ⊢
      rw [if_neg hdef]
      refine Or.inr ⟨2, _, by omega, skip_delimited (length_lt_of_submessage hsize), rfl, ?_⟩
      rcases h with h | h <;> rw [PbField.tag] at h <;> simp only [h, PbField.tag]
  | oneof tag fields =>
    simp only [fieldWire, fieldNodes] at hsize ⊢
    by_cases hsel : src.num 0 = tag.toUInt32
    · rw [if_pos hsel] at hsize ⊢
      rw [if_pos hsel]
      refine Or.inr ⟨2, _, by omega, skip_delimited (length_lt_of_submessage hsize), rfl, ?_⟩
      rcases h with h | h <;> rw [PbField.tag] at h <;> simp only [h, PbField.tag]
    · rw [if_neg hsel, if_neg hsel]
      exact Or.inl ⟨rfl, rfl⟩
  | callback tag => exact Or.inl ⟨rfl, rfl⟩
  | last => exact Or.inl ⟨rfl, rfl⟩

lemma enters_unused {field : PbField} {src : PbStruct} (hok : fieldOk field = true)
    (hunused : Unused reader field.tag) (hsize : (fieldWire field src).length < 2 ^ 32) :
    Enters reader (fieldWire field src) (fieldNodes reader field src) := by
  obtain ⟨h0, hlt⟩ := tag_of_ok hok
  rcases unused_wire field hunused hsize with
    ⟨hwire, hnodes⟩ | ⟨wireType, d, hw, hskip, hwire, hnodes⟩
  · rw [hwire, hnodes]
    exact .nil
  · rw [hwire, hnodes]
    exact enters_field (key_reads hw h0 hlt) (skipped_reads hunused hskip)

/-! ### Everything that is written is entered -/

lemma enters_wire_of {src : PbStruct} (hsize : (wire writer src).length < 2 ^ 32)
    (h : ∀ field ∈ writer, (fieldWire field src).length < 2 ^ 32 →
      Enters reader (fieldWire field src) (fieldNodes reader field src)) :
    Enters reader (wire writer src) (nodes reader writer src) := by
  induction writer with
  | nil => exact .nil
  | cons field writer ih =>
    simp only [wire, fieldWire.wire, List.length_append] at hsize
    have hfield := h field (by simp) (by omega)
    have hrest := ih (by simp only [wire]; omega) fun f hf => h f (by simp [hf])
    exact hfield.append hrest

lemma fieldWire_enters (field : PbField) : ∀ (reader : List PbField) (src : PbStruct),
    fieldOk field = true → (∀ e, pbFieldIterFind reader field.tag = some e → Entry e field) →
    (fieldWire field src).length < 2 ^ 32 →
      Enters reader (fieldWire field src) (fieldNodes reader field src) := by
  induction field using fieldInduction with
  | uint32 tag =>
    intro reader src hok hentry hsize
    rcases unused_or hentry with hunused | ⟨e, hfind, hsame, hcall⟩
    · exact enters_unused hok hunused hsize
    obtain ⟨h0, hlt⟩ := tag_of_ok hok
    cases hsame with
    | callback t => exact absurd rfl (hcall t)
    | uint32 t =>
      simp only [PbField.tag] at hfind
      simp only [fieldWire, fieldNodes, hfind]
      split
      · exact .nil
      · exact enters_number hfind h0 hlt (src.num tag)
  | message tag fields ih =>
    intro reader src hok hentry hsize
    rcases unused_or hentry with hunused | ⟨e, hfind, hsame, hcall⟩
    · exact enters_unused hok hunused hsize
    obtain ⟨h0, hlt⟩ : 0 < tag ∧ tag < 2 ^ 29 := tag_of_ok hok
    have hfields := tableOk_message hok
    cases hsame with
    | callback t => exact absurd rfl (hcall t)
    | @message _ entries _ hknown =>
      simp only [PbField.tag] at hfind
      simp only [fieldWire, fieldNodes, hfind] at hsize ⊢
      split
      · exact .nil
      · next hdef =>
        rw [if_neg hdef] at hsize
        have hcontent := length_lt_of_submessage hsize
        have hin := enters_wire_of hcontent fun f hf hlt => ih f hf entries (src.sub tag)
          (hfields.all f hf) (fun e he => entry_of_find hfields hknown hf he) hlt
        exact enters_submessage (by rw [hfind]; rfl) h0 hlt hcontent hin
  | oneof tag fields ih =>
    intro reader src hok hentry hsize
    rcases unused_or hentry with hunused | ⟨e, hfind, hsame, hcall⟩
    · exact enters_unused hok hunused hsize
    obtain ⟨h0, hlt⟩ : 0 < tag ∧ tag < 2 ^ 29 := tag_of_ok hok
    have hfields := tableOk_oneof hok
    cases hsame with
    | callback t => exact absurd rfl (hcall t)
    | @oneof _ entries _ hknown =>
      simp only [PbField.tag] at hfind
      simp only [fieldWire, fieldNodes, hfind] at hsize ⊢
      split
      · next hsel =>
        rw [if_pos hsel] at hsize
        have hcontent := length_lt_of_submessage hsize
        have hin := enters_wire_of hcontent fun f hf hlt => ih f hf entries (src.sub tag)
          (hfields.all f hf) (fun e he => entry_of_find hfields hknown hf he) hlt
        exact enters_submessage (by rw [hfind]; rfl) h0 hlt hcontent hin
      · exact .nil
  | callback tag => exact fun _ _ _ _ _ => .nil
  | last => exact fun _ _ _ _ _ => .nil

/-- **What is written is whole fields for the reader.** -/
theorem enters_wire (hwriter : TableOk writer) (hknown : Known writer reader) {src : PbStruct}
    (hsize : (wire writer src).length < 2 ^ 32) :
    Enters reader (wire writer src) (nodes reader writer src) :=
  enters_wire_of hsize fun field hmem hlt => fieldWire_enters field reader src
    (hwriter.all field hmem) (fun _ he => entry_of_find hwriter hknown hmem he) hlt

end RoombaBrain.PbEntered
