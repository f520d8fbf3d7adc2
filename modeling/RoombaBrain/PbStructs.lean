import Mathlib.Data.List.Nodup
import RoombaBrain.Memory
import RoombaBrain.PbIter
import RoombaBrain.PbSame

/-!
The structs of messages in memory.

Each field has its member in the struct. The members of a oneof share their bytes, and `which_`
tells whose they are. A memory holds a struct when every field that counts can be loaded from it:
the members that are not selected do not count, and no callback is set.
-/

namespace RoombaBrain.PbStructs

open RoombaBrain.Memory RoombaBrain.PbDecode RoombaBrain.PbWire RoombaBrain.PbSame
  RoombaBrain.PbIter

/-- What the compiler makes of the structs: their layouts, their sizes, and where `which_` is in
those with a oneof. -/
structure Structs (t : Target) where
  layout : List PbField → Layout t
  sizeof : List PbField → ℕ
  which : List PbField → ℕ

variable {t : Target} (s : Structs t)

/-- The member that the generator makes for a field. A repeated callback has no counter, and what is
read as one are its first bytes. -/
def MemberFor : PbField → Member → Prop
  | .uint32 tag, m =>
    m.tag = tag ∧ m.atype = .static ∧ m.htype = .optional ∧ m.distance = 0 ∧ m.itemSize = 4
  | .message tag fields, m =>
    m.tag = tag ∧ m.atype = .static ∧ m.htype = .optional ∧ m.distance = 0 ∧
      m.itemSize = s.sizeof fields
  | .oneof tag fields, m =>
    m.tag = tag ∧ m.atype = .static ∧ m.htype = .oneof ∧ m.distance ≠ 0 ∧
      m.itemSize = s.sizeof fields ∧ tag < 256 ^ t.sizeBytes
  | .callback tag, m =>
    m.tag = tag ∧ m.atype = .callback ∧ (m.htype = .optional ∨ m.htype = .repeated ∧
      m.arraySize = 0 ∧ t.sizeBytes ≤ m.itemSize) ∧ m.distance = 0 ∧ t.ptrSize ≤ m.itemSize
  | .last, _ => False

/-- The struct of a table. Its members have no bytes in common, but for those of the oneof, and
none with `which_`. -/
structure LaidOut (fields : List PbField) : Prop where
  members : List.Forall₂ (MemberFor s) fields (s.layout fields).members
  inside : ∀ m ∈ (s.layout fields).members, m.offset + m.itemSize ≤ s.sizeof fields
  apart : (s.layout fields).members.Pairwise fun m m' =>
    m.htype = .oneof ∧ m'.htype = .oneof ∨ Apart m.offset m.itemSize m'.offset m'.itemSize
  which : ∀ m ∈ (s.layout fields).members, m.htype = .oneof →
    m.offset + m.distance = s.which fields ∧ s.which fields + t.sizeBytes ≤ s.sizeof fields ∧
      ∀ m' ∈ (s.layout fields).members,
        Apart (s.which fields) t.sizeBytes m'.offset m'.itemSize

inductive Below (root : List PbField) : List PbField → Prop
  | root : Below root root
  | message {tag fields entries} (h : Below root fields)
      (hmem : .message tag entries ∈ fields) : Below root entries
  | oneof {tag fields entries} (h : Below root fields)
      (hmem : .oneof tag entries ∈ fields) : Below root entries

def AllLaidOut (root : List PbField) : Prop := ∀ fields, Below root fields → LaidOut s fields

variable {s} {fields : List PbField} {a i : ℕ} {mem mem' : Mem} {d d' : PbStruct} {m : Member}

lemma Below.trans {root fields entries : List PbField} (h : Below root fields)
    (h' : Below fields entries) : Below root entries := by
  induction h' with
  | root => exact h
  | message _ hmem ih => exact ih.message hmem
  | oneof _ hmem ih => exact ih.oneof hmem

lemma AllLaidOut.laidOut (h : AllLaidOut s fields) : LaidOut s fields := h fields .root

lemma AllLaidOut.message (h : AllLaidOut s fields) {tag : ℕ} {entries : List PbField}
    (hmem : .message tag entries ∈ fields) : AllLaidOut s entries :=
  fun below hbelow => h below ((Below.root.message hmem).trans hbelow)

lemma AllLaidOut.oneof (h : AllLaidOut s fields) {tag : ℕ} {entries : List PbField}
    (hmem : .oneof tag entries ∈ fields) : AllLaidOut s entries :=
  fun below hbelow => h below ((Below.root.oneof hmem).trans hbelow)

/-! ### What a memory holds -/

variable (s) in
def fieldHolds : PbField → Member → ℕ → Mem → PbStruct → Prop
  | .uint32 tag, m, a, mem, d => load mem (a + m.offset) 4 = (d.num tag).toNat
  | .message tag fields, m, a, mem, d =>
    allHold fields (s.layout fields).members (a + m.offset) mem (d.sub tag)
  | .oneof tag fields, m, a, mem, d =>
    load mem (a + m.offset + m.distance).toNat t.sizeBytes = (d.num 0).toNat ∧
      (d.num 0 = tag.toUInt32 →
        allHold fields (s.layout fields).members (a + m.offset) mem (d.sub tag))
  | .callback _, m, a, mem, _ => load mem (a + m.offset) m.itemSize = 0
  | .last, _, _, _, _ => True
where
  allHold : List PbField → List Member → ℕ → Mem → PbStruct → Prop
    | field :: fields, m :: ms, a, mem, d =>
      fieldHolds field m a mem d ∧ allHold fields ms a mem d
    | _, _, _, _, _ => True

variable (s) in
def Holds (fields : List PbField) (a : ℕ) (mem : Mem) (d : PbStruct) : Prop :=
  fieldHolds.allHold s fields (s.layout fields).members a mem d

lemma allHold_iff {ms : List Member} : fieldHolds.allHold s fields ms a mem d ↔
    ∀ (i : ℕ) (field : PbField) (m : Member), fields[i]? = some field → ms[i]? = some m →
      fieldHolds s field m a mem d := by
  induction fields generalizing ms with
  | nil => simp [fieldHolds.allHold]
  | cons field fields ih =>
    cases ms with
    | nil => simp [fieldHolds.allHold]
    | cons m ms =>
      unfold fieldHolds.allHold
      rw [ih]
      constructor
      · rintro ⟨hhead, htail⟩ i f n hf hn
        cases i with
        | zero =>
          cases hf
          cases hn
          exact hhead
        | succ i => exact htail i f n hf hn
      · intro h
        exact ⟨h 0 field m rfl rfl, fun i f n hf hn => h (i + 1) f n hf hn⟩

lemma holds_iff : Holds s fields a mem d ↔ ∀ (i : ℕ) (field : PbField) (m : Member),
    fields[i]? = some field → (s.layout fields).members[i]? = some m →
      fieldHolds s field m a mem d := allHold_iff

/-! ### Members -/

lemma LaidOut.memberFor (h : LaidOut s fields) {field : PbField} (hf : fields[i]? = some field)
    (hm : (s.layout fields).members[i]? = some m) : MemberFor s field m := by
  obtain ⟨hi, rfl⟩ := List.getElem?_eq_some_iff.mp hf
  obtain ⟨hi', rfl⟩ := List.getElem?_eq_some_iff.mp hm
  exact h.members.get hi hi'

lemma MemberFor.tag_eq {field : PbField} (h : MemberFor s field m) : m.tag = field.tag := by
  cases field with
  | uint32 | message | oneof | callback => exact h.1
  | last => exact absurd h id

/-- A member is one of the oneof, optional, or a repeated callback. -/
lemma MemberFor.kind {field : PbField} (h : MemberFor s field m) :
    m.htype = .oneof ∧ (∃ tag entries, field = .oneof tag entries) ∨
      (m.htype = .optional ∨ m.htype = .repeated ∧ m.arraySize = 0) ∧
        ∀ tag entries, field ≠ .oneof tag entries := by
  cases field with
  | oneof tag entries => exact Or.inl ⟨h.2.2.1, tag, entries, rfl⟩
  | uint32 | message => exact Or.inr ⟨Or.inl h.2.2.1, fun _ _ => PbField.noConfusion⟩
  | callback =>
    obtain ⟨-, -, htype, -⟩ := h
    exact Or.inr ⟨htype.imp_right fun h => ⟨h.1, h.2.1⟩, fun _ _ => PbField.noConfusion⟩
  | last => exact absurd h id

lemma LaidOut.tags (h : LaidOut s fields) :
    (s.layout fields).members.map Member.tag = fields.map PbField.tag := by
  apply List.ext_getElem
  · simpa using h.members.length_eq.symm
  · intro i hi hi'
    simp only [List.length_map] at hi hi'
    simp only [List.getElem_map]
    exact (h.members.get hi' hi).tag_eq

lemma LaidOut.exists_member (h : LaidOut s fields) {field : PbField}
    (hf : fields[i]? = some field) : ∃ m, (s.layout fields).members[i]? = some m := by
  obtain ⟨hi, -⟩ := List.getElem?_eq_some_iff.mp hf
  rw [h.members.length_eq] at hi
  exact ⟨_, List.getElem?_eq_getElem hi⟩

lemma LaidOut.which_at (h : LaidOut s fields) (hm : m ∈ (s.layout fields).members)
    (honeof : m.htype = .oneof) (a : ℕ) :
    (a + m.offset + m.distance : ℤ).toNat = a + s.which fields := by
  have hwhich := (h.which m hm honeof).1
  omega

/-- Members of different fields have no bytes in common, unless both are in the oneof. -/
lemma LaidOut.apart_of_ne (h : LaidOut s fields) {j : ℕ} {n : Member} (hne : j ≠ i)
    (hm : (s.layout fields).members[i]? = some m) (hn : (s.layout fields).members[j]? = some n) :
    m.htype = .oneof ∧ n.htype = .oneof ∨ Apart m.offset m.itemSize n.offset n.itemSize := by
  obtain ⟨hi, rfl⟩ := List.getElem?_eq_some_iff.mp hm
  obtain ⟨hj, rfl⟩ := List.getElem?_eq_some_iff.mp hn
  have hall := List.pairwise_iff_getElem.mp h.apart
  rcases Nat.lt_or_gt_of_ne hne with hlt | hlt
  · rcases hall j i hj hi hlt with ⟨hn, hm⟩ | hapart
    · exact Or.inl ⟨hm, hn⟩
    · exact Or.inr hapart.symm
  · exact hall i j hi hj hlt

lemma Apart.shift {o n o' n' : ℕ} (h : Apart o n o' n') (a : ℕ) : Apart (a + o) n (a + o') n' := by
  unfold Apart at h ⊢
  omega

lemma tag_ne (hok : TableOk fields) {j : ℕ} {field f : PbField} (hne : j ≠ i)
    (hf : fields[i]? = some field) (hf' : fields[j]? = some f) : f.tag ≠ field.tag := by
  intro he
  have hlt : j < (fields.map PbField.tag).length := by
    rw [List.length_map]
    exact (List.getElem?_eq_some_iff.mp hf').1
  refine hne ((List.getElem?_inj hlt hok.nodup).mp ?_)
  rw [List.getElem?_map, List.getElem?_map, hf, hf', Option.map_some, Option.map_some, he]

/-! ### Walks through a table -/

variable (s) in
structure Before (fields : List PbField) (a : ℕ) (iter : PbFieldIter) (rest : List PbField) :
    Prop where
  points : Points (s.layout fields) a iter
  rest : fields.drop iter.pos = rest

lemma begin_walk (h : LaidOut s fields) (a : ℕ) :
    fields = [] ∧ (pbFieldIterBegin (s.layout fields).table a).1 = false ∨
      (pbFieldIterBegin (s.layout fields).table a).1 = true ∧
        Before s fields a (pbFieldIterBegin (s.layout fields).table a).2 fields := by
  cases fields with
  | nil =>
    refine Or.inl ⟨rfl, ?_⟩
    have hnone : (s.layout []).members[0]? = none :=
      List.getElem?_eq_none (Nat.le_of_eq h.members.length_eq.symm)
    simp [pbFieldIterBegin, fieldAt_none _ hnone, pbLastField]
  | cons field rest =>
    obtain ⟨m, hm⟩ := h.exists_member (i := 0) rfl
    refine Or.inr ⟨?_, begin_points _ a, rfl⟩
    simp [pbFieldIterBegin, fieldAt_zero _ hm, pbField, PbIter.tag_ne_zero _ hm]

section
variable {iter : PbFieldIter} {field : PbField} {rest : List PbField}

lemma Before.head (h : Before s fields a iter (field :: rest)) :
    fields[iter.pos]? = some field := by
  rw [← List.head?_drop, h.rest]
  rfl

/-- It goes on to the next field, and ends when there are no more. -/
lemma Before.next (hlaid : LaidOut s fields) (h : Before s fields a iter (field :: rest)) :
    rest = [] ∧ (pbFieldIterNext t iter).1 = false ∨
      (pbFieldIterNext t iter).1 = true ∧ Before s fields a (pbFieldIterNext t iter).2 rest := by
  have hnext := next_of (s.layout fields) h.points.stands
  have hlen := hlaid.members.length_eq
  have htail : fields.drop (iter.pos + 1) = rest := by
    rw [← List.tail_drop, h.rest]
    rfl
  by_cases hlt : iter.pos + 1 < (s.layout fields).members.length
  · refine Or.inr ⟨hnext.more.trans (decide_eq_true hlt), hnext.points, ?_⟩
    rw [hnext.pos, if_pos (by omega), htail]
  · refine Or.inl ⟨?_, hnext.more.trans (decide_eq_false hlt)⟩
    rw [← htail]
    exact List.drop_eq_nil_of_le (by omega)

end

/-! ### What a change leaves as it is -/

def FieldLaidOut (s : Structs t) : PbField → Prop
  | .message _ fields | .oneof _ fields => AllLaidOut s fields
  | .uint32 _ | .callback _ | .last => True

lemma AllLaidOut.field (h : AllLaidOut s fields) {field : PbField} (hmem : field ∈ fields) :
    FieldLaidOut s field := by
  cases field with
  | message tag entries => exact h.message hmem
  | oneof tag entries => exact h.oneof hmem
  | uint32 | callback | last => trivial

def Stable (s : Structs t) (field : PbField) : Prop :=
  ∀ (m : Member) (a : ℕ) (mem mem' : Mem) (d : PbStruct), MemberFor s field m →
    FieldLaidOut s field → Agree (a + m.offset) m.itemSize mem mem' →
    (m.htype = .oneof → Agree (a + m.offset + m.distance : ℤ).toNat t.sizeBytes mem mem') →
    fieldHolds s field m a mem d → fieldHolds s field m a mem' d

lemma holds_of_stable (hstable : ∀ field ∈ fields, Stable s field) (hlaid : AllLaidOut s fields)
    (hagree : Agree a (s.sizeof fields) mem mem') (h : Holds s fields a mem d) :
    Holds s fields a mem' d := by
  refine holds_iff.mpr fun i field m hf hm => ?_
  have hfield := List.mem_of_getElem? hf
  have hmember := List.mem_of_getElem? hm
  have hinside := hlaid.laidOut.inside m hmember
  refine hstable field hfield m a mem mem' d (hlaid.laidOut.memberFor hf hm)
    (hlaid.field hfield) (hagree.mono (by omega) (by omega)) (fun honeof => ?_)
    (holds_iff.mp h i field m hf hm)
  have hwhich := (hlaid.laidOut.which m hmember honeof).2.1
  rw [hlaid.laidOut.which_at hmember honeof]
  exact hagree.mono (by omega) (by omega)

lemma stable (s : Structs t) (field : PbField) : Stable s field := by
  induction field using fieldInduction with
  | uint32 tag =>
    rintro m a mem mem' d ⟨-, -, -, -, hsize⟩ - hagree - h
    rw [hsize] at hagree
    exact hagree.load_eq.trans h
  | message tag fields ih =>
    rintro m a mem mem' d ⟨-, -, -, -, hsize⟩ hlaid hagree - h
    rw [hsize] at hagree
    exact holds_of_stable ih hlaid hagree h
  | oneof tag fields ih =>
    rintro m a mem mem' d ⟨-, -, honeof, -, hsize, -⟩ hlaid hagree hwhich ⟨hload, hsub⟩
    rw [hsize] at hagree
    exact ⟨(hwhich honeof).load_eq.trans hload,
      fun hsel => holds_of_stable ih hlaid hagree (hsub hsel)⟩
  | callback tag => exact fun m a mem mem' d _ _ hagree _ h => hagree.load_eq.trans h
  | last => exact fun _ _ _ _ _ _ _ _ _ _ => trivial

lemma Holds.agree (h : Holds s fields a mem d) (hlaid : AllLaidOut s fields)
    (hagree : Agree a (s.sizeof fields) mem mem') : Holds s fields a mem' d :=
  holds_of_stable (fun field _ => stable s field) hlaid hagree h

lemma fieldHolds_frame {field : PbField} (hnum : d'.num field.tag = d.num field.tag)
    (hsub : d'.sub field.tag = d.sub field.tag)
    (hwhich : m.htype = .oneof → d'.num 0 = d.num 0) (hm : MemberFor s field m)
    (h : fieldHolds s field m a mem d) : fieldHolds s field m a mem d' := by
  cases field with
  | uint32 tag => exact Eq.trans h (congrArg UInt32.toNat hnum.symm)
  | message tag fields =>
    have hsub : d'.sub tag = d.sub tag := hsub
    unfold fieldHolds
    rw [hsub]
    exact h
  | oneof tag fields =>
    have hsub : d'.sub tag = d.sub tag := hsub
    unfold fieldHolds
    rw [hsub, hwhich hm.2.2.1]
    exact h
  | callback tag => exact h
  | last => trivial

/-- A field outside the oneof is changed, and no other. -/
lemma Holds.update (h : Holds s fields a mem d) (hlaid : AllLaidOut s fields)
    (hok : TableOk fields) {field : PbField} (hf : fields[i]? = some field)
    (hm : (s.layout fields).members[i]? = some m) (hnot : m.htype ≠ .oneof)
    (hmem : Within (a + m.offset) m.itemSize mem mem')
    (hd : ∀ k, k ≠ field.tag → d'.num k = d.num k ∧ d'.sub k = d.sub k)
    (hnew : fieldHolds s field m a mem' d') : Holds s fields a mem' d' := by
  refine holds_iff.mpr fun j f n hf' hn => ?_
  by_cases hji : j = i
  · subst hji
    rw [hf] at hf'
    rw [hm] at hn
    cases hf'
    cases hn
    exact hnew
  · have hfield := List.mem_of_getElem? hf'
    have hmember := List.mem_of_getElem? hn
    have hfor := hlaid.laidOut.memberFor hf' hn
    have htag := tag_ne hok hji hf hf'
    have hzero : 0 ≠ field.tag :=
      Nat.ne_of_lt (tag_of_ok (hok.all field (List.mem_of_getElem? hf))).1
    have hapart : Apart m.offset m.itemSize n.offset n.itemSize :=
      (hlaid.laidOut.apart_of_ne hji hm hn).resolve_left fun hboth => hnot hboth.1
    have hagree := hmem.agree (Apart.shift hapart a)
    have hheld := stable s f n a mem mem' d hfor (hlaid.field hfield) hagree
      (fun honeof => by
        have hwhich := (hlaid.laidOut.which n hmember honeof).2.2 m (List.mem_of_getElem? hm)
        rw [hlaid.laidOut.which_at hmember honeof]
        exact hmem.agree (Apart.shift hwhich.symm a)) (holds_iff.mp h j f n hf' hn)
    exact fieldHolds_frame (hd f.tag htag).1 (hd f.tag htag).2 (fun _ => (hd 0 hzero).1) hfor hheld

/-- Another member of the oneof is selected, or none. -/
lemma Holds.select (h : Holds s fields a mem d) (hlaid : AllLaidOut s fields)
    (hmem : ∀ m ∈ (s.layout fields).members, m.htype ≠ .oneof →
      Agree (a + m.offset) m.itemSize mem mem')
    (hwhich : load mem' (a + s.which fields) t.sizeBytes = (d'.num 0).toNat)
    (hd : ∀ field ∈ fields, (∀ tag entries, field ≠ .oneof tag entries) →
      d'.num field.tag = d.num field.tag ∧ d'.sub field.tag = d.sub field.tag)
    (hnew : ∀ (i tag : ℕ) (entries : List PbField) (m : Member),
      fields[i]? = some (.oneof tag entries) → (s.layout fields).members[i]? = some m →
        d'.num 0 = tag.toUInt32 → Holds s entries (a + m.offset) mem' (d'.sub tag)) :
    Holds s fields a mem' d' := by
  refine holds_iff.mpr fun i field m hf hm => ?_
  have hfield := List.mem_of_getElem? hf
  have hmember := List.mem_of_getElem? hm
  have hfor := hlaid.laidOut.memberFor hf hm
  rcases hfor.kind with ⟨honeof, tag, entries, rfl⟩ | ⟨hkind, hfield'⟩
  · refine ⟨?_, hnew i tag entries m hf hm⟩
    rw [hlaid.laidOut.which_at hmember honeof]
    exact hwhich
  · have hnot : m.htype ≠ .oneof := by
      rcases hkind with htype | ⟨htype, -⟩ <;> simp [htype]
    obtain ⟨hnum, hsub⟩ := hd _ hfield hfield'
    exact fieldHolds_frame hnum hsub (fun honeof => absurd honeof hnot) hfor
      (stable s _ m a mem mem' d hfor (hlaid.field hfield) (hmem m hmember hnot)
        (fun honeof => absurd honeof hnot) (holds_iff.mp h i _ m hf hm))

/-! ### Reading members -/

section
variable (s)

def memberOf (fields : List PbField) (tag : ℕ) : Option Member :=
  (s.layout fields).members.find? fun m => m.tag = tag

/-- `offsetof` -/
def offsetOf (fields : List PbField) (tag : ℕ) : ℕ :=
  (memberOf s fields tag).elim 0 Member.offset

def numAt (fields : List PbField) (a : ℕ) (mem : Mem) (tag : ℕ) : UInt32 :=
  (load mem (a + offsetOf s fields tag) 4).toUInt32

def whichAt (fields : List PbField) (a : ℕ) (mem : Mem) : UInt32 :=
  (load mem (a + s.which fields) t.sizeBytes).toUInt32

end

variable {entries : List PbField} {tag : ℕ}

lemma memberOf_eq (hlaid : LaidOut s fields) (hok : TableOk fields) {field : PbField}
    (hf : fields[i]? = some field) (hm : (s.layout fields).members[i]? = some m) :
    memberOf s fields field.tag = some m := by
  obtain ⟨hi, rfl⟩ := List.getElem?_eq_some_iff.mp hm
  refine List.find?_eq_some_iff_getElem.mpr ⟨?_, i, hi, rfl, fun j hj => ?_⟩
  · exact decide_eq_true (hlaid.memberFor hf hm).tag_eq
  · have hlen := hlaid.members.length_eq
    have hf' : fields[j]? = some fields[j] := List.getElem?_eq_getElem (by omega)
    have hfor := hlaid.memberFor hf' (List.getElem?_eq_getElem (by omega))
    have hne := tag_ne hok (Nat.ne_of_lt hj) hf hf'
    simpa [hfor.tag_eq] using hne

lemma offsetOf_eq (hlaid : LaidOut s fields) (hok : TableOk fields) {field : PbField}
    (hf : fields[i]? = some field) (hm : (s.layout fields).members[i]? = some m) :
    offsetOf s fields field.tag = m.offset := by
  rw [offsetOf, memberOf_eq hlaid hok hf hm, Option.elim_some]

lemma Holds.member (h : Holds s fields a mem d) (hlaid : LaidOut s fields) (hok : TableOk fields)
    {field : PbField} (hmem : field ∈ fields) :
    ∃ m ∈ (s.layout fields).members, MemberFor s field m ∧ offsetOf s fields field.tag = m.offset ∧
      fieldHolds s field m a mem d := by
  obtain ⟨i, hf⟩ := List.getElem?_of_mem hmem
  obtain ⟨m, hm⟩ := hlaid.exists_member hf
  exact ⟨m, List.mem_of_getElem? hm, hlaid.memberFor hf hm, offsetOf_eq hlaid hok hf hm,
    holds_iff.mp h i field m hf hm⟩

lemma toUInt32_toNat (x : UInt32) : x.toNat.toUInt32 = x := UInt32.ofNat_toNat

lemma numAt_eq (h : Holds s fields a mem d) (hlaid : LaidOut s fields) (hok : TableOk fields)
    (hmem : .uint32 tag ∈ fields) : numAt s fields a mem tag = d.num tag := by
  obtain ⟨m, -, -, hoffset, hload⟩ := h.member hlaid hok hmem
  have hload : load mem (a + m.offset) 4 = (d.num tag).toNat := hload
  have hoffset : offsetOf s fields tag = m.offset := hoffset
  rw [numAt, hoffset, hload, toUInt32_toNat]

lemma whichAt_eq (h : Holds s fields a mem d) (hlaid : LaidOut s fields) (hok : TableOk fields)
    (hmem : .oneof tag entries ∈ fields) : whichAt s fields a mem = d.num 0 := by
  obtain ⟨m, hm, hfor, -, hload, -⟩ := h.member hlaid hok hmem
  rw [hlaid.which_at hm hfor.2.2.1] at hload
  rw [whichAt, hload, toUInt32_toNat]

lemma selected_holds (h : Holds s fields a mem d) (hlaid : LaidOut s fields) (hok : TableOk fields)
    (hmem : .oneof tag entries ∈ fields) (hsel : d.num 0 = tag.toUInt32) :
    Holds s entries (a + offsetOf s fields tag) mem (d.sub tag) := by
  obtain ⟨m, -, -, hoffset, -, hsub⟩ := h.member hlaid hok hmem
  have hoffset : offsetOf s fields tag = m.offset := hoffset
  rw [hoffset]
  exact hsub hsel

/-! ### Checking structs -/

variable (s) in
instance decidableMemberFor (field : PbField) (m : Member) : Decidable (MemberFor s field m) := by
  cases field <;> unfold MemberFor <;> infer_instance

variable (s) in
instance decidableLaidOut (fields : List PbField) : Decidable (LaidOut s fields) :=
  let ms := (s.layout fields).members
  decidable_of_iff
    ((fields.length = ms.length ∧ ∀ p ∈ fields.zip ms, MemberFor s p.1 p.2) ∧
      (∀ m ∈ ms, m.offset + m.itemSize ≤ s.sizeof fields) ∧
      (ms.Pairwise fun m m' => m.htype = .oneof ∧ m'.htype = .oneof ∨
        Apart m.offset m.itemSize m'.offset m'.itemSize) ∧
      ∀ m ∈ ms, m.htype = .oneof → m.offset + m.distance = s.which fields ∧
        s.which fields + t.sizeBytes ≤ s.sizeof fields ∧
          ∀ m' ∈ ms, Apart (s.which fields) t.sizeBytes m'.offset m'.itemSize)
    ⟨fun ⟨⟨hlen, hzip⟩, hinside, hapart, hwhich⟩ =>
      ⟨List.forall₂_iff_zip.mpr ⟨hlen, fun hmem => hzip _ hmem⟩, hinside, hapart, hwhich⟩,
    fun h => ⟨⟨h.members.length_eq, fun _ hmem => (List.forall₂_iff_zip.mp h.members).2 hmem⟩,
      h.inside, h.apart, h.which⟩⟩

variable (s) in
def checkField : PbField → Bool
  | .message _ fields | .oneof _ fields => decide (LaidOut s fields) && checkFields fields
  | .uint32 _ | .callback _ | .last => true
where
  checkFields : List PbField → Bool
    | [] => true
    | field :: fields => checkField field && checkFields fields

lemma checkFields_iff :
    checkField.checkFields s fields = true ↔ ∀ field ∈ fields, checkField s field = true := by
  induction fields with
  | nil => simp [checkField.checkFields]
  | cons field fields ih => simp [checkField.checkFields, ih]

lemma allLaidOut_of (h : LaidOut s fields) (hall : ∀ field ∈ fields, FieldLaidOut s field) :
    AllLaidOut s fields := by
  intro below hbelow
  have hboth : LaidOut s below ∧ ∀ field ∈ below, FieldLaidOut s field := by
    induction hbelow with
    | root => exact ⟨h, hall⟩
    | message _ hmem ih =>
      have hentries : AllLaidOut s _ := ih.2 _ hmem
      exact ⟨hentries.laidOut, fun field => hentries.field⟩
    | oneof _ hmem ih =>
      have hentries : AllLaidOut s _ := ih.2 _ hmem
      exact ⟨hentries.laidOut, fun field => hentries.field⟩
  exact hboth.1

lemma laidOut_of_check {field : PbField} (h : checkField s field = true) :
    FieldLaidOut s field := by
  induction field using fieldInduction with
  | uint32 | callback | last => trivial
  | message tag fields ih | oneof tag fields ih =>
    unfold checkField at h
    rw [Bool.and_eq_true, decide_eq_true_iff, checkFields_iff] at h
    exact allLaidOut_of h.1 fun field hmem => ih field hmem (h.2 field hmem)

/-- What is checked of a table and of all those below it. -/
lemma allLaidOut_of_check (h : checkField s (.message 0 fields) = true) : AllLaidOut s fields :=
  laidOut_of_check h

end RoombaBrain.PbStructs
