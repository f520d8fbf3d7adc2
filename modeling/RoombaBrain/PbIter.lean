import Mathlib.Algebra.Group.Nat.Defs
import Mathlib.Data.List.Chain
import RoombaBrain.Rings

/-!
The iterator over a table (`pb_common.c`, with the tables of `pb.h`).

A table tells of each member of a struct how far it is from the end of the one before. The iterator
goes round the table and keeps the address of the member it is at. A search begins where the last
one ended, so that fields in the order of the table are found at once.
-/

namespace RoombaBrain.PbIter

open RoombaBrain.Rings

/-! ### Tables -/

/-- `PB_ATYPE` -/
inductive Atype
  | static | pointer | callback
  deriving DecidableEq

/-- `PB_HTYPE` -/
inductive Htype
  | required | optional | repeated | oneof
  deriving DecidableEq

/-- `pb_field_t`, without its `ptr`. No field is an extension. -/
structure PbFieldT where
  tag : ℕ
  atype : Atype
  htype : Htype
  dataOffset : ℕ
  sizeOffset : ℤ
  dataSize : ℕ
  arraySize : ℕ

/-- `PB_LAST_FIELD` -/
def pbLastField : PbFieldT := ⟨0, .static, .required, 0, 0, 0, 0⟩

/-- `sizeof(pb_size_t)`, which depends on the options nanopb is built with, and `sizeof(void*)`. -/
structure Target where
  sizeBytes : ℕ
  ptrSize : ℕ

/-- `PB_SIZE_MAX` -/
def Target.sizeMax (t : Target) : ℕ := 256 ^ t.sizeBytes - 1

/-- A member of a struct: where it is, how large one item of it is, and how many there are. The
distance is that to its count or `which_` field. A further member of a union has
`PB_DATAOFFSET_UNION` as its placement. -/
structure Member where
  tag : ℕ
  atype : Atype
  htype : Htype
  offset : ℕ
  distance : ℤ
  itemSize : ℕ
  arraySize : ℕ
  shared : Bool

variable (t : Target)

/-- `pb_membersize` -/
def Member.size (m : Member) : ℕ :=
  if m.atype = .static ∧ m.htype = .repeated then m.itemSize * m.arraySize
  else if m.atype = .pointer then t.ptrSize
  else m.itemSize

/-- `PB_DATAOFFSET_FIRST`, `PB_DATAOFFSET_UNION` and `PB_DATAOFFSET_OTHER` -/
def Member.dataOffset (before : Option Member) (m : Member) : ℕ :=
  match before with
  | none => m.offset
  | some b => if m.shared then t.sizeMax else m.offset - b.offset - b.size t

/-- `PB_FIELD`, `PB_ONEOF_FIELD` -/
def pbField (before : Option Member) (m : Member) : PbFieldT :=
  ⟨m.tag, m.atype, m.htype, m.dataOffset t before, m.distance, m.itemSize, m.arraySize⟩

def tableOf : Option Member → List Member → List PbFieldT
  | _, [] => []
  | before, m :: ms => pbField t before m :: tableOf (some m) ms

/-- How a member lies after another one: in the same union, or behind it. The gap between them is
small enough for the table. -/
def Member.Follows (b m : Member) : Prop :=
  if m.shared then
    b.htype = .oneof ∧ m.htype = .oneof ∧ m.offset = b.offset ∧ m.distance = b.distance
  else b.offset + b.size t ≤ m.offset ∧ m.offset - b.offset - b.size t < t.sizeMax

structure Layout where
  members : List Member
  tags : ∀ m ∈ members, m.tag ≠ 0
  chain : members.IsChain (Member.Follows t)

def Layout.empty : Layout t := ⟨[], by simp, by simp⟩

variable {t} in
/-- The table of a struct. `PB_LAST_FIELD` comes after it. -/
def Layout.table (l : Layout t) : List PbFieldT := tableOf t none l.members

/-! ### The iterator -/

/-- `pb_field_iter_t`; `pos` is the index in the table at `start`. -/
structure PbFieldIter where
  start : List PbFieldT
  pos : ℕ
  requiredFieldIndex : ℕ
  destStruct : ℕ
  pData : ℕ
  pSize : ℤ

/-- `fields[i]` -/
def fieldAt (fields : List PbFieldT) (i : ℕ) : PbFieldT := fields.getD i pbLastField

/-- `pb_field_iter_begin` -/
def pbFieldIterBegin (fields : List PbFieldT) (destStruct : ℕ) : Bool × PbFieldIter :=
  let pos := fieldAt fields 0
  let pData := destStruct + pos.dataOffset
  (decide (pos.tag ≠ 0), ⟨fields, 0, 0, destStruct, pData, pData + pos.sizeOffset⟩)

/-- `pb_field_iter_next` -/
def pbFieldIterNext (iter : PbFieldIter) : Bool × PbFieldIter :=
  let prevField := fieldAt iter.start iter.pos
  if prevField.tag = 0 then (false, iter)
  else
    let pos := fieldAt iter.start (iter.pos + 1)
    if pos.tag = 0 then
      -- wrapped back to the beginning
      (false, (pbFieldIterBegin iter.start iter.destStruct).2)
    else if prevField.htype = .oneof ∧ pos.htype = .oneof ∧ pos.dataOffset = t.sizeMax then
      (true, { iter with pos := iter.pos + 1 })
    else
      let prevSize :=
        if prevField.atype = .static ∧ prevField.htype = .repeated then
          prevField.dataSize * prevField.arraySize
        else if prevField.atype = .pointer then t.ptrSize
        else prevField.dataSize
      let pData := iter.pData + prevSize + pos.dataOffset
      (true, { iter with
        pos := iter.pos + 1
        requiredFieldIndex :=
          if prevField.htype = .required then iter.requiredFieldIndex + 1
          else iter.requiredFieldIndex
        pData := pData
        pSize := pData + pos.sizeOffset })

/-- The loop that `pb_field_iter_find` and `find_extension_field` have in common. A table with a
terminator is never longer than the fuel. -/
def searchFrom (hit : PbFieldT → Bool) (iter : PbFieldIter) : Option (Bool × PbFieldIter) :=
  search (fun iter => (pbFieldIterNext t iter).2) PbFieldIter.pos
    (fun iter => hit (fieldAt iter.start iter.pos)) (iter.start.length + 1) iter.pos iter

/-- `pb_field_iter_find` -/
def pbFieldIterFind (iter : PbFieldIter) (tag : ℕ) : Option (Bool × PbFieldIter) :=
  searchFrom t (fun field => field.tag = tag) iter

/-- `find_extension_field` -/
def findExtensionField (iter : PbFieldIter) : Option (Bool × PbFieldIter) :=
  searchFrom t (fun _ => false) iter

/-! ### The entries of a table -/

variable {t} {ms : List Member} {before : Option Member}

lemma length_tableOf : (tableOf t before ms).length = ms.length := by
  induction ms generalizing before with
  | nil => rfl
  | cons m ms ih => simp [tableOf, ih]

lemma tableOf_succ {i : ℕ} {b m : Member} (hb : ms[i]? = some b) (hm : ms[i + 1]? = some m) :
    (tableOf t before ms)[i + 1]? = some (pbField t (some b) m) := by
  induction ms generalizing before i with
  | nil => cases hb
  | cons n ms ih =>
    unfold tableOf
    rw [List.getElem?_cons_succ]
    rw [List.getElem?_cons_succ] at hm
    cases i with
    | zero =>
      cases hb
      cases ms with
      | nil => cases hm
      | cons n ms =>
        cases hm
        rfl
    | succ i => exact ih hb hm

lemma tableOf_some {i : ℕ} {m : Member} (hm : ms[i]? = some m) (before : Option Member) :
    ∃ b, (tableOf t before ms)[i]? = some (pbField t b m) ∧ (i = 0 → b = before) ∧
      (0 < i → b = ms[i - 1]?) := by
  cases i with
  | zero =>
    cases ms with
    | nil => cases hm
    | cons n ms =>
      cases hm
      exact ⟨before, rfl, fun _ => rfl, fun h => absurd h (Nat.lt_irrefl _)⟩
  | succ i =>
    have hlt : i < ms.length := by
      have hlt := (List.getElem?_eq_some_iff.mp hm).1
      omega
    have hb : ms[i]? = some ms[i] := List.getElem?_eq_getElem hlt
    exact ⟨some ms[i], tableOf_succ hb hm, fun h => absurd h (Nat.succ_ne_zero i), fun _ => hb.symm⟩

section
variable (l : Layout t) {i : ℕ} {b m : Member}

lemma fieldAt_zero (hm : l.members[0]? = some m) : fieldAt l.table 0 = pbField t none m := by
  have hentry := tableOf_some (t := t) hm
  obtain ⟨b, hb, hnone, -⟩ := hentry none
  unfold fieldAt
  rw [List.getD_eq_getElem?_getD, Layout.table, hb, hnone rfl]
  rfl

lemma fieldAt_succ (hb : l.members[i]? = some b) (hm : l.members[i + 1]? = some m) :
    fieldAt l.table (i + 1) = pbField t (some b) m := by
  unfold fieldAt
  rw [List.getD_eq_getElem?_getD, Layout.table, tableOf_succ hb hm]
  rfl

lemma fieldAt_some (hm : l.members[i]? = some m) :
    ∃ b, fieldAt l.table i = pbField t b m := by
  have hentry := tableOf_some (t := t) hm
  obtain ⟨b, hb, -, -⟩ := hentry none
  refine ⟨b, ?_⟩
  unfold fieldAt
  rw [List.getD_eq_getElem?_getD, Layout.table, hb]
  rfl

lemma fieldAt_none (hm : l.members[i]? = none) : fieldAt l.table i = pbLastField := by
  have hlen : (tableOf t none l.members)[i]? = none := by
    rw [List.getElem?_eq_none_iff] at hm ⊢
    rwa [length_tableOf]
  unfold fieldAt
  rw [List.getD_eq_getElem?_getD, Layout.table, hlen]
  rfl

lemma tag_ne_zero (hm : l.members[i]? = some m) : m.tag ≠ 0 :=
  l.tags m (List.mem_of_getElem? hm)

lemma follows (hb : l.members[i]? = some b) (hm : l.members[i + 1]? = some m) :
    b.Follows t m := by
  obtain ⟨hi, rfl⟩ := List.getElem?_eq_some_iff.mp hb
  obtain ⟨hi', rfl⟩ := List.getElem?_eq_some_iff.mp hm
  exact List.isChain_iff_getElem.mp l.chain i hi'

end

/-! ### Where the iterator is -/

structure Points (l : Layout t) (dest : ℕ) (iter : PbFieldIter) : Prop where
  start : iter.start = l.table
  destStruct : iter.destStruct = dest
  lt : iter.pos < max 1 l.members.length
  data : ∀ m, l.members[iter.pos]? = some m → iter.pData = dest + m.offset
  size : ∀ m, l.members[iter.pos]? = some m → iter.pSize = dest + m.offset + m.distance

/-- The iterator is in the table, at the address of its member. While it is at a repeated field,
`pb_decode_noinit` may have its `pSize` point somewhere else. -/
structure Stands (l : Layout t) (dest : ℕ) (iter : PbFieldIter) : Prop where
  start : iter.start = l.table
  destStruct : iter.destStruct = dest
  lt : iter.pos < max 1 l.members.length
  data : ∀ m, l.members[iter.pos]? = some m → iter.pData = dest + m.offset
  size : ∀ m, l.members[iter.pos]? = some m → m.htype ≠ .repeated →
    iter.pSize = dest + m.offset + m.distance

lemma Points.stands {l : Layout t} {dest : ℕ} {iter : PbFieldIter} (h : Points l dest iter) :
    Stands l dest iter := ⟨h.start, h.destStruct, h.lt, h.data, fun m hm _ => h.size m hm⟩

lemma begin_points (l : Layout t) (dest : ℕ) :
    Points l dest (pbFieldIterBegin l.table dest).2 := by
  refine ⟨rfl, rfl, Nat.lt_of_lt_of_le Nat.one_pos (Nat.le_max_left _ _), fun m hm => ?_,
    fun m hm => ?_⟩
  · show dest + (fieldAt l.table 0).dataOffset = _
    rw [fieldAt_zero l hm]
    rfl
  · show ((dest + (fieldAt l.table 0).dataOffset : ℕ) : ℤ) + (fieldAt l.table 0).sizeOffset = _
    rw [fieldAt_zero l hm]
    simp [pbField, Member.dataOffset]

structure NextOf (l : Layout t) (dest : ℕ) (iter : PbFieldIter) (r : Bool × PbFieldIter) :
    Prop where
  points : Points l dest r.2
  more : r.1 = decide (iter.pos + 1 < l.members.length)
  pos : r.2.pos = if iter.pos + 1 < max 1 l.members.length then iter.pos + 1 else 0

lemma next_of (l : Layout t) {dest : ℕ} {iter : PbFieldIter} (h : Stands l dest iter) :
    NextOf l dest iter (pbFieldIterNext t iter) := by
  have hlt := h.lt
  rcases hb : l.members[iter.pos]? with _ | b
  · -- the table is empty
    have hlen := List.getElem?_eq_none_iff.mp hb
    have hnext : pbFieldIterNext t iter = (false, iter) := by
      simp only [pbFieldIterNext, h.start, fieldAt_none l hb, pbLastField, if_true]
    have hpoints : Points l dest iter := ⟨h.start, h.destStruct, h.lt, h.data, fun m hm => by
      rw [hb] at hm
      cases hm⟩
    rw [hnext]
    refine ⟨hpoints, (decide_eq_false (by omega)).symm, ?_⟩
    show iter.pos = _
    rw [if_neg (by omega)]
    omega
  · obtain ⟨before, hfield⟩ := fieldAt_some l hb
    have htag : b.tag ≠ 0 := tag_ne_zero l hb
    have hin := (List.getElem?_eq_some_iff.mp hb).1
    rcases hm : l.members[iter.pos + 1]? with _ | m
    · -- it was the last member
      have hlen := List.getElem?_eq_none_iff.mp hm
      have hnext : pbFieldIterNext t iter = (false, (pbFieldIterBegin l.table dest).2) := by
        simp only [pbFieldIterNext, h.start, h.destStruct, hfield, fieldAt_none l hm]
        simp [pbField, htag, pbLastField]
      rw [hnext]
      refine ⟨begin_points l dest, (decide_eq_false (by omega)).symm, ?_⟩
      show 0 = _
      rw [if_neg (by omega)]
    · have hlen := (List.getElem?_eq_some_iff.mp hm).1
      have htag' : m.tag ≠ 0 := tag_ne_zero l hm
      have hpos : iter.pos + 1 < max 1 l.members.length := by omega
      have hfollows := follows l hb hm
      have hdata := h.data b hb
      by_cases hshared : m.shared = true
      · -- both are in the same union
        rw [Member.Follows, if_pos hshared] at hfollows
        obtain ⟨honeof, honeof', hoffset, hdistance⟩ := hfollows
        have hsize := h.size b hb (by simp [honeof])
        have hnext : pbFieldIterNext t iter = (true, { iter with pos := iter.pos + 1 }) := by
          simp only [pbFieldIterNext, h.start, hfield, fieldAt_succ l hb hm]
          simp [pbField, htag, htag', honeof, honeof', Member.dataOffset, hshared]
        rw [hnext]
        refine ⟨⟨h.start, h.destStruct, hpos, fun n hn => ?_, fun n hn => ?_⟩,
          (decide_eq_true hlen).symm, (if_pos hpos).symm⟩
        · obtain rfl := Option.some.inj (hm.symm.trans hn)
          rw [hoffset]
          exact hdata
        · obtain rfl := Option.some.inj (hm.symm.trans hn)
          rw [hoffset, hdistance]
          exact hsize
      · -- the next one lies behind
        rw [Member.Follows, if_neg hshared] at hfollows
        obtain ⟨hbehind, hgap⟩ := hfollows
        have hnot : ¬ (b.htype = .oneof ∧ m.htype = .oneof ∧
            m.offset - b.offset - b.size t = t.sizeMax) := fun hall =>
          Nat.ne_of_lt hgap hall.2.2
        have haddress : iter.pData + b.size t + (m.offset - b.offset - b.size t) =
            dest + m.offset := by omega
        have hnext : ∃ required, pbFieldIterNext t iter = (true, { iter with
            pos := iter.pos + 1
            requiredFieldIndex := required
            pData := dest + m.offset
            pSize := dest + m.offset + m.distance }) := by
          refine ⟨if b.htype = .required then iter.requiredFieldIndex + 1
            else iter.requiredFieldIndex, ?_⟩
          simp only [pbFieldIterNext, h.start, hfield, fieldAt_succ l hb hm, pbField, htag, htag',
            if_false, Member.dataOffset, hshared, Bool.false_eq_true, hnot]
          rw [← Member.size, haddress]
          simp
        obtain ⟨required, hnext⟩ := hnext
        rw [hnext]
        refine ⟨⟨h.start, h.destStruct, hpos, fun n hn => ?_, fun n hn => ?_⟩,
          (decide_eq_true hlen).symm, (if_pos hpos).symm⟩
        · obtain rfl := Option.some.inj (hm.symm.trans hn)
          rfl
        · obtain rfl := Option.some.inj (hm.symm.trans hn)
          rfl

lemma ring {l : Layout t} {dest : ℕ} {inv : PbFieldIter → Prop}
    (hstands : ∀ iter, inv iter → Stands l dest iter)
    (hpoints : ∀ iter, Points l dest iter → inv iter) :
    Ring (fun iter => (pbFieldIterNext t iter).2) PbFieldIter.pos (max 1 l.members.length) inv where
  inv_next iter h := hpoints _ (next_of l (hstands iter h)).points
  lt iter h := (hstands iter h).lt
  place_next iter h := (next_of l (hstands iter h)).pos

/-! ### Loops over a table -/

variable (t) in
/-- What `do { … } while (pb_field_iter_next(&iter))` comes by: fields and the addresses of their
members. -/
def visits : ℕ → PbFieldIter → List (PbFieldT × ℕ)
  | 0, _ => []
  | fuel + 1, iter =>
    (fieldAt iter.start iter.pos, iter.pData) ::
      match pbFieldIterNext t iter with
      | (true, iter) => visits fuel iter
      | (false, _) => []

variable (t) in
/-- The loop of `pb_encode` and of `pb_message_set_to_defaults`, which is left out for an empty
table. -/
def loopOver (fields : List PbFieldT) (destStruct : ℕ) : List (PbFieldT × ℕ) :=
  match pbFieldIterBegin fields destStruct with
  | (false, _) => []
  | (true, iter) => visits t (fields.length + 1) iter

lemma visits_eq (l : Layout t) {dest fuel : ℕ} {iter : PbFieldIter} (h : Points l dest iter)
    (hin : iter.pos < l.members.length) (hfuel : l.members.length ≤ iter.pos + fuel) :
    (visits t fuel iter).map (fun v => (v.1.tag, v.2)) =
      (l.members.drop iter.pos).map fun m => (m.tag, dest + m.offset) := by
  induction fuel generalizing iter with
  | zero => exact absurd hfuel (by omega)
  | succ fuel ih =>
    have hm : l.members[iter.pos]? = some l.members[iter.pos] := List.getElem?_eq_getElem hin
    obtain ⟨b, hfield⟩ := fieldAt_some l hm
    have hnext := next_of l h.stands
    have hfirst : ((fieldAt iter.start iter.pos).tag, iter.pData) =
        (l.members[iter.pos].tag, dest + l.members[iter.pos].offset) := by
      rw [h.start, hfield, h.data _ hm]
      rfl
    rw [List.drop_eq_getElem_cons hin, List.map_cons, visits, List.map_cons, hfirst]
    congr 1
    rcases hr : pbFieldIterNext t iter with ⟨more, iter'⟩
    rw [hr] at hnext
    by_cases hlast : iter.pos + 1 < l.members.length
    · obtain rfl : more = true := hnext.more.trans (decide_eq_true hlast)
      have hpos : iter'.pos = iter.pos + 1 := hnext.pos.trans (if_pos (by omega))
      rw [← hpos]
      exact ih hnext.points (by omega) (by omega)
    · obtain rfl : more = false := hnext.more.trans (decide_eq_false hlast)
      rw [List.drop_eq_nil_of_le (by omega)]
      rfl

/-- **A loop over a table comes by every member once**, in the order of the table, at the address
that the member has in the struct. -/
theorem loop_visits (t : Target) (l : Layout t) (dest : ℕ) :
    (loopOver t l.table dest).map (fun v => (v.1.tag, v.2)) =
      l.members.map fun m => (m.tag, dest + m.offset) := by
  have hlen : l.table.length = l.members.length := length_tableOf
  rcases hm : l.members[0]? with _ | m
  · have hnil : l.members = [] := by
      rw [List.getElem?_eq_none_iff] at hm
      exact List.eq_nil_of_length_eq_zero (by omega)
    have hbegin : (pbFieldIterBegin l.table dest).1 = false := by
      simp [pbFieldIterBegin, fieldAt_none l hm, pbLastField]
    unfold loopOver
    rcases hr : pbFieldIterBegin l.table dest with ⟨more, iter⟩
    rw [hr] at hbegin
    obtain rfl : more = false := hbegin
    simp [hnil]
  · have hin := (List.getElem?_eq_some_iff.mp hm).1
    have hbegin : (pbFieldIterBegin l.table dest).1 = true := by
      simp [pbFieldIterBegin, fieldAt_zero l hm, pbField, tag_ne_zero l hm]
    have hpoints := begin_points l dest
    have hpos : (pbFieldIterBegin l.table dest).2.pos = 0 := rfl
    unfold loopOver
    rcases hr : pbFieldIterBegin l.table dest with ⟨more, iter⟩
    rw [hr] at hbegin hpoints hpos
    obtain rfl : more = true := hbegin
    have hpos : iter.pos = 0 := hpos
    have hfuel : l.members.length ≤ iter.pos + (l.table.length + 1) := by omega
    have hvisits := visits_eq l hpoints (by omega) hfuel
    rw [hpos, List.drop_zero] at hvisits
    exact hvisits

/-! ### Searches -/

def pointAt (l : Layout t) (dest i : ℕ) : PbFieldIter :=
  ⟨l.table, i, 0, dest, dest + (l.members[i]?.map Member.offset).getD 0,
    dest + (l.members[i]?.map fun m => (m.offset : ℤ) + m.distance).getD 0⟩

lemma pointAt_points (l : Layout t) (dest : ℕ) {i : ℕ} (hi : i < max 1 l.members.length) :
    Points l dest (pointAt l dest i) := by
  refine ⟨rfl, rfl, hi, fun m hm => ?_, fun m hm => ?_⟩
  · have hm : l.members[i]? = some m := hm
    simp [pointAt, hm]
  · have hm : l.members[i]? = some m := hm
    simp [pointAt, hm, Int.add_assoc]

section
variable {l : Layout t} {dest : ℕ} {inv : PbFieldIter → Prop}
  (hstands : ∀ iter, inv iter → Stands l dest iter)
  (hpoints : ∀ iter, Points l dest iter → inv iter) {iter : PbFieldIter} (h : inv iter)

include hstands hpoints h

lemma searchFrom_spec (hit : PbFieldT → Bool) :
    ∃ found iter', searchFrom t hit iter = some (found, iter') ∧ inv iter' ∧
      (found = true → hit (fieldAt l.table iter'.pos) = true) ∧
      (found = false → iter'.pos = iter.pos ∧
        ∀ i < max 1 l.members.length, hit (fieldAt l.table i) = false) := by
  have hlen : l.table.length = l.members.length := length_tableOf
  have hfuel : max 1 l.members.length ≤ iter.start.length + 1 := by
    rw [(hstands iter h).start]
    omega
  have hhit : ∀ a b : PbFieldIter, inv a → inv b → a.pos = b.pos →
      hit (fieldAt a.start a.pos) = hit (fieldAt b.start b.pos) := by
    intro a b ha hb hab
    rw [(hstands a ha).start, (hstands b hb).start, hab]
  obtain ⟨found, iter', hsearch, hinv, hfound, hmissed⟩ :=
    (ring hstands hpoints).search_spec hhit h hfuel
  refine ⟨found, iter', hsearch, hinv, fun hf => ?_, fun hf => ?_⟩
  · rw [← (hstands iter' hinv).start]
    exact hfound hf
  · obtain ⟨hpos, hall⟩ := hmissed hf
    exact ⟨hpos, fun i hi => hall (pointAt l dest i) (hpoints _ (pointAt_points l dest hi))⟩

end

structure Search (l : Layout t) (tag : ℕ) (iter : PbFieldIter) (found : Bool)
    (iter' : PbFieldIter) : Prop where
  found_iff : found = true ↔ (∃ m ∈ l.members, m.tag = tag) ∨ l.members = [] ∧ tag = 0
  tag : found = true → ∀ m, l.members[iter'.pos]? = some m → m.tag = tag
  stays : found = false → iter'.pos = iter.pos

lemma search_of {l : Layout t} {dest : ℕ} {inv : PbFieldIter → Prop}
    (hstands : ∀ iter, inv iter → Stands l dest iter)
    (hpoints : ∀ iter, Points l dest iter → inv iter) {iter : PbFieldIter} (h : inv iter)
    (tag : ℕ) : ∃ found iter', pbFieldIterFind t iter tag = some (found, iter') ∧ inv iter' ∧
      Search l tag iter found iter' := by
  obtain ⟨found, iter', hsearch, hinv, hfound, hmissed⟩ :=
    searchFrom_spec hstands hpoints h fun field => decide (field.tag = tag)
  have htag : found = true → ∀ m, l.members[iter'.pos]? = some m → m.tag = tag := by
    intro hf m hm
    obtain ⟨b, hfield⟩ := fieldAt_some l hm
    have hhit := hfound hf
    rw [hfield] at hhit
    exact of_decide_eq_true hhit
  refine ⟨found, iter', hsearch, hinv, ⟨fun hf => ?_, fun hor => ?_⟩, htag,
    fun hf => (hmissed hf).1⟩
  · rcases hm : l.members[iter'.pos]? with _ | m
    · have hlt := (hstands iter' hinv).lt
      rw [List.getElem?_eq_none_iff] at hm
      refine Or.inr ⟨List.eq_nil_of_length_eq_zero (by omega), ?_⟩
      have hhit := hfound hf
      rw [fieldAt_none l (List.getElem?_eq_none_iff.mpr hm)] at hhit
      exact (of_decide_eq_true hhit).symm
    · exact Or.inl ⟨m, List.mem_of_getElem? hm, htag hf m hm⟩
  · by_contra hf
    have hnone := (hmissed (by simpa using hf)).2
    rcases hor with ⟨m, hmem, rfl⟩ | ⟨hnil, rfl⟩
    · obtain ⟨i, hi, hm⟩ := List.getElem_of_mem hmem
      have hm : l.members[i]? = some m := by rw [List.getElem?_eq_getElem hi, hm]
      obtain ⟨b, hfield⟩ := fieldAt_some l hm
      have hmiss := hnone i (by omega)
      rw [hfield] at hmiss
      exact of_decide_eq_false hmiss rfl
    · have hmiss := hnone 0 (Nat.lt_of_lt_of_le Nat.one_pos (Nat.le_max_left _ _))
      rw [fieldAt_none l (by simp [hnil])] at hmiss
      exact of_decide_eq_false hmiss rfl

/-- What a search for a tag comes to. The terminator has the tag 0, and is only looked at in an
empty table. -/
structure Finds (l : Layout t) (dest tag : ℕ) (iter : PbFieldIter) (found : Bool)
    (iter' : PbFieldIter) : Prop where
  points : Points l dest iter'
  found_iff : found = true ↔ (∃ m ∈ l.members, m.tag = tag) ∨ l.members = [] ∧ tag = 0
  tag : found = true → ∀ m, l.members[iter'.pos]? = some m → m.tag = tag
  stays : found = false → iter'.pos = iter.pos

lemma finds (l : Layout t) {dest : ℕ} {iter : PbFieldIter} (h : Points l dest iter) (tag : ℕ) :
    ∃ found iter', pbFieldIterFind t iter tag = some (found, iter') ∧
      Finds l dest tag iter found iter' := by
  obtain ⟨found, iter', hfind, hpoints, hsearch⟩ :=
    search_of (fun _ => Points.stands) (fun _ => id) h tag
  exact ⟨found, iter', hfind, hpoints, hsearch.found_iff, hsearch.tag, hsearch.stays⟩

/-- The iterators of a struct, wherever the functions of `pb_common.c` have taken them. -/
inductive Led (l : Layout t) (dest : ℕ) : PbFieldIter → Prop
  | start : Led l dest (pbFieldIterBegin l.table dest).2
  | next {iter} (h : Led l dest iter) : Led l dest (pbFieldIterNext t iter).2
  | find {iter tag found iter'} (h : Led l dest iter)
      (hfind : pbFieldIterFind t iter tag = some (found, iter')) : Led l dest iter'

lemma Led.points {l : Layout t} {dest : ℕ} {iter : PbFieldIter} (h : Led l dest iter) :
    Points l dest iter := by
  induction h with
  | start => exact begin_points l dest
  | next _ ih => exact (next_of l ih.stands).points
  | find _ hfind ih =>
    obtain ⟨found, iter', hsome, hfinds⟩ := finds l ih _
    rw [hfind] at hsome
    obtain ⟨-, rfl⟩ := Prod.mk.inj (Option.some.inj hsome)
    exact hfinds.points

end RoombaBrain.PbIter
