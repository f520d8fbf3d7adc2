import RoombaBrain.PbLocal
import RoombaBrain.PbDecode

/-!
What the bytes of a message say, apart from how they are decoded.

The bytes are cut into the fields that stand on the wire, one after the other, up to the end,
to a zero key, or to the first field that cannot be read. A field whose content is broken
still counts as entered, with what was read of it. The fields entered, in order, determine
the struct: `noinitLoop_follows`.
-/

namespace RoombaBrain.PbMessage

open RoombaBrain.ByteReader RoombaBrain.PbStream RoombaBrain.PbLocal RoombaBrain.PbDecode

/-- A field on the wire: a 32-bit number, a submessage with the fields entered in it, or a value
that is skipped. -/
inductive Node
  | uint32 (tag : ℕ) (value : UInt32)
  | message (oneof : Bool) (tag : ℕ) (fields : List Node)
  | skipped (tag : ℕ)

def Node.store : Node → PbStruct → PbStruct
  | .uint32 tag value, d => d.setNum tag value
  | .message true tag fields, d =>
    (d.setNum 0 tag.toUInt32).setSub tag (storeAll fields PbStruct.zero)
  | .message false tag fields, d => d.setSub tag (storeAll fields (d.sub tag))
  | .skipped _, d => d
where
  storeAll : List Node → PbStruct → PbStruct
    | [], d => d
    | node :: nodes, d => storeAll nodes (node.store d)

abbrev storeAll := Node.store.storeAll

/-- The fields entered, each with its bytes, and whether the message is well formed. -/
structure Parse where
  items : List (List UInt8 × Node)
  whole : Bool

def Parse.nodes (p : Parse) : List Node := p.items.map Prod.snd

/-! ### One field -/

/-- The value of a field, by the table entry for its tag; the flag is `false` for a value that
was read and stored but does not fit. -/
def bodyReader (inner : List PbField → List UInt8 → Parse) (field : Option PbField)
    (wireType tag : ℕ) : Reader (Bool × Node) :=
  match field with
  | none | some (.callback _) => do
    pbSkipField wireType
    pure (true, .skipped tag)
  | some (.uint32 _) => do
    let value ← pbDecodeVarint
    pure (decide (value.toUInt32.toUInt64 = value), .uint32 tag value.toUInt32)
  | some (.message _ fields) => do
    let content ← contentReader
    pure ((inner fields content).whole, .message false tag (inner fields content).nodes)
  | some (.oneof _ fields) => do
    let content ← contentReader
    pure ((inner fields content).whole, .message true tag (inner fields content).nodes)
  | some .last => do
    let _ ← pbDecodeVarint
    fail "invalid data_size"

/-- The field entered when its value cannot be read: a submessage, with nothing in it. -/
def brokenNode (field : Option PbField) (tag : ℕ) : List Node :=
  match field with
  | some (.message _ _) => [.message false tag []]
  | some (.oneof _ _) => [.message true tag []]
  | _ => []

inductive Step
  | stop (whole : Bool) (entered : List Node)
  | field (node : Node) (rest : List UInt8)

def parseField (inner : List PbField → List UInt8 → Parse) (fields : List PbField)
    (w : List UInt8) : Step :=
  match w with
  | [] => .stop true []
  | b :: w =>
    match keyReader (on (b :: w) []) with
    | .error _ => .stop false []
    | .ok (none, _) => .stop true []
    | .ok (some (wireType, tag), s) =>
      match bodyReader inner (pbFieldIterFind fields tag) wireType tag s with
      | .error _ => .stop false (brokenNode (pbFieldIterFind fields tag) tag)
      | .ok ((true, node), s) => .field node s.bytes
      | .ok ((false, node), _) => .stop false [node]

inductive Rule (inner : List PbField → List UInt8 → Parse) (fields : List PbField) :
    List UInt8 → Step → Prop
  | done : Rule inner fields [] (.stop true [])
  | badKey {w} (hw : w ≠ []) (hkey : Fails keyReader w) : Rule inner fields w (.stop false [])
  | zeroKey {c} (r) (hc : c ≠ []) (hkey : Reads keyReader c none) :
      Rule inner fields (c ++ r) (.stop true [])
  | broken {c r wireType tag} (hc : c ≠ []) (hkey : Reads keyReader c (some (wireType, tag)))
      (hbody : Fails (bodyReader inner (pbFieldIterFind fields tag) wireType tag) r) :
      Rule inner fields (c ++ r) (.stop false (brokenNode (pbFieldIterFind fields tag) tag))
  | bad {c d wireType tag node} (r) (hc : c ≠ [])
      (hkey : Reads keyReader c (some (wireType, tag)))
      (hbody : Reads (bodyReader inner (pbFieldIterFind fields tag) wireType tag) d
        (false, node)) :
      Rule inner fields (c ++ (d ++ r)) (.stop false [node])
  | good {c d wireType tag node} (r) (hc : c ≠ [])
      (hkey : Reads keyReader c (some (wireType, tag)))
      (hbody : Reads (bodyReader inner (pbFieldIterFind fields tag) wireType tag) d
        (true, node)) :
      Rule inner fields (c ++ (d ++ r)) (.field node r)

variable {inner : List PbField → List UInt8 → Parse} {fields : List PbField}

lemma bodyReader_local (inner : List PbField → List UInt8 → Parse) (field : Option PbField)
    (wireType tag : ℕ) :
    Local (bodyReader inner field wireType tag) := by
  unfold bodyReader
  split
  · exact (pbSkipField_local wireType).bind fun _ => Local.pure _
  · exact (pbSkipField_local wireType).bind fun _ => Local.pure _
  · exact pbDecodeVarint_local.bind fun _ => Local.pure _
  · exact contentReader_local.bind fun _ => Local.pure _
  · exact contentReader_local.bind fun _ => Local.pure _
  · exact pbDecodeVarint_local.bind fun _ => Local.fail _

lemma keyReader_ne_nil {c : List UInt8} {k : Option (ℕ × ℕ)} (h : Reads keyReader c k) :
    c ≠ [] := by
  rintro rfl
  have := h [] []
  cases this

lemma exists_rule (inner : List PbField → List UInt8 → Parse) (fields : List PbField)
    (w : List UInt8) : ∃ st, Rule inner fields w st := by
  by_cases hw : w = []
  · subst hw
    exact ⟨_, .done⟩
  rcases keyReader_local w with ⟨c, r, k, rfl, hc⟩ | hf
  · have hne := keyReader_ne_nil hc
    rcases k with _ | ⟨wireType, tag⟩
    · exact ⟨_, .zeroKey r hne hc⟩
    · rcases bodyReader_local inner (pbFieldIterFind fields tag) wireType tag r with
        ⟨d, u, ⟨_ | _, node⟩, rfl, hd⟩ | hf
      · exact ⟨_, .bad u hne hc hd⟩
      · exact ⟨_, .good u hne hc hd⟩
      · exact ⟨_, .broken hne hc hf⟩
  · exact ⟨_, .badKey hw hf⟩

/-- The rules are what `parseField` computes. -/
lemma Rule.eq {w : List UInt8} {st : Step} (h : Rule inner fields w st) :
    parseField inner fields w = st := by
  have hkey : ∀ w : List UInt8, w ≠ [] → parseField inner fields w =
      match keyReader (on w []) with
      | .error _ => .stop false []
      | .ok (none, _) => .stop true []
      | .ok (some (wireType, tag), s) =>
        match bodyReader inner (pbFieldIterFind fields tag) wireType tag s with
        | .error _ => .stop false (brokenNode (pbFieldIterFind fields tag) tag)
        | .ok ((true, node), s) => .field node s.bytes
        | .ok ((false, node), _) => .stop false [node] := by
    intro w hw
    cases w with
    | nil => exact absurd rfl hw
    | cons b w => rfl
  cases h with
  | done => rfl
  | badKey hw hf =>
    obtain ⟨e, he⟩ := hf
    rw [hkey _ hw, he]
  | zeroKey r hc hk => rw [hkey _ (by simp [hc]), hk r []]
  | broken hc hk hf =>
    obtain ⟨e, he⟩ := hf
    rw [hkey _ (by simp [hc]), hk _ []]
    simp only [he]
  | bad r hc hk hd =>
    rw [hkey _ (by simp [hc]), hk _ []]
    simp only [hd r []]
  | good r hc hk hd =>
    rw [hkey _ (by simp [hc]), hk _ []]
    simp only [hd r [], bytes_on]

lemma parseField_rule (inner : List PbField → List UInt8 → Parse) (fields : List PbField)
    (w : List UInt8) : Rule inner fields w (parseField inner fields w) := by
  obtain ⟨st, h⟩ := exists_rule inner fields w
  rwa [h.eq]

/-! ### A message -/

/-- The fields of a message, with a fuel that is not used up when it exceeds the length. -/
def parseLoop : ℕ → List PbField → List UInt8 → Parse
  | 0, _, _ => ⟨[], false⟩
  | fuel + 1, fields, w =>
    match parseField (parseLoop fuel) fields w with
    | .stop whole entered => ⟨entered.map fun node => (w, node), whole⟩
    | .field node rest =>
      let p := parseLoop fuel fields rest
      ⟨(w.take (w.length - rest.length), node) :: p.items, p.whole⟩

def parse (fields : List PbField) (w : List UInt8) : Parse :=
  parseLoop (w.length + 1) fields w

end RoombaBrain.PbMessage
