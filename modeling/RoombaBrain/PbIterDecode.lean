import RoombaBrain.PbIter
import RoombaBrain.PbSame

/-!
The decoder with its iterator.

`pb_decode_noinit` goes round its table with an iterator, and counts the items of a repeated field
that has no counter in the struct. Neither makes a difference to what it decodes: the tables have
every number once, so that a search finds the same field from wherever it begins, and the only
repeated fields without a counter are callbacks, whose items nobody counts or expects.
-/

namespace RoombaBrain.PbIterDecode

open RoombaBrain.ByteReader RoombaBrain.PbStream RoombaBrain.PbDecode RoombaBrain.PbWire
  RoombaBrain.PbIter

variable {t : Target}

/-! ### The locals of a call -/

/-- The locals of `pb_decode_noinit`. `fixed_count_field` is told by its index in the table. -/
structure Locals where
  iter : PbFieldIter
  extensionRangeStart : ℕ
  fixedCountField : Option ℕ
  fixedCountSize : ℕ

def Locals.start (fields : List PbFieldT) (destStruct : ℕ) : Locals :=
  ⟨(pbFieldIterBegin fields destStruct).2, 0, none, 0⟩

def Locals.wrongSize (v : Locals) : Bool :=
  match v.fixedCountField with
  | none => false
  | some i => v.fixedCountSize ≠ (fieldAt v.iter.start i).arraySize

/-- A repeated field whose counter would be where the field is has none in the struct. Its items are
counted in `fixed_count_size`, which is at `count`. -/
def Locals.fixedCount (count : ℕ) (v : Locals) : Except String Locals :=
  if (fieldAt v.iter.start v.iter.pos).htype = .repeated ∧ v.iter.pSize = v.iter.pData then
    let iter := { v.iter with pSize := count }
    if v.fixedCountField = some v.iter.pos then .ok { v with iter := iter }
    else if v.wrongSize then .error "wrong size for fixed count field"
    else .ok { v with iter := iter, fixedCountField := some v.iter.pos, fixedCountSize := 0 }
  else .ok v

/-- What is checked after the loop. No field is required. -/
def Locals.finish (v : Locals) (stream : PbIstream) : Except String PbIstream :=
  if v.wrongSize then .error "wrong size for fixed count field" else .ok stream

/-- No member is required, and no repeated one is expected to have items. -/
def Uncounted (l : Layout t) : Prop :=
  ∀ m ∈ l.members, m.htype ≠ .required ∧ (m.htype = .repeated → m.arraySize = 0)

structure Locals.Ok (l : Layout t) (dest : ℕ) (v : Locals) : Prop where
  stands : Stands l dest v.iter
  size : v.fixedCountSize = 0
  field : ∀ i, v.fixedCountField = some i → (fieldAt l.table i).arraySize = 0

section
variable {l : Layout t} {dest : ℕ} {v : Locals}

lemma start_ok (l : Layout t) (dest : ℕ) : (Locals.start l.table dest).Ok l dest :=
  ⟨(begin_points l dest).stands, rfl, by rintro i ⟨⟩⟩

lemma Locals.Ok.wrongSize (h : v.Ok l dest) : v.wrongSize = false := by
  unfold Locals.wrongSize
  rcases hfield : v.fixedCountField with _ | i
  · rfl
  · simp [h.size, h.stands.start, h.field i hfield]

lemma Locals.Ok.move (h : v.Ok l dest) {iter : PbFieldIter} (hstands : Stands l dest iter)
    (extensionRangeStart : ℕ) :
    Locals.Ok l dest { v with iter := iter, extensionRangeStart := extensionRangeStart } :=
  ⟨hstands, h.size, h.field⟩

/-- Counting never fails, and leaves the iterator where it is. -/
lemma fixedCount_ok (huncounted : Uncounted l) (h : v.Ok l dest) (count : ℕ) :
    ∃ v', v.fixedCount count = .ok v' ∧ v'.Ok l dest ∧ v'.iter.pos = v.iter.pos := by
  unfold Locals.fixedCount
  by_cases hfixed : (fieldAt v.iter.start v.iter.pos).htype = .repeated ∧
      v.iter.pSize = v.iter.pData
  · rw [if_pos hfixed]
    obtain ⟨hrepeated, -⟩ := hfixed
    rw [h.stands.start] at hrepeated
    rcases hm : l.members[v.iter.pos]? with _ | m
    · rw [fieldAt_none l hm] at hrepeated
      cases hrepeated
    obtain ⟨b, hfield⟩ := fieldAt_some l hm
    rw [hfield] at hrepeated
    have hrepeated : m.htype = .repeated := hrepeated
    have harray : (fieldAt l.table v.iter.pos).arraySize = 0 := by
      rw [hfield]
      exact (huncounted m (List.mem_of_getElem? hm)).2 hrepeated
    -- only the counter of the field that the iterator is at is somewhere else
    have hstands : Stands l dest { v.iter with pSize := count } := by
      refine ⟨h.stands.start, h.stands.destStruct, h.stands.lt, h.stands.data, fun n hn hnot => ?_⟩
      rw [hm] at hn
      cases hn
      exact absurd hrepeated hnot
    by_cases hsame : v.fixedCountField = some v.iter.pos
    · exact ⟨_, if_pos hsame, ⟨hstands, h.size, h.field⟩, rfl⟩
    · refine ⟨_, (if_neg hsame).trans (if_neg (by simp [h.wrongSize])), ⟨hstands, rfl, ?_⟩, rfl⟩
      rintro i ⟨⟩
      exact harray
  · exact ⟨v, if_neg hfixed, h, rfl⟩

lemma finish_ok (h : v.Ok l dest) (stream : PbIstream) : v.finish stream = .ok stream := by
  unfold Locals.finish
  rw [h.wrongSize]
  rfl

end

/-! ### Decoding -/

variable (t) in
/-- The loop of `pb_decode_noinit`, with its locals. The layouts are those of the structs that the
tables are for, and `countAt` tells where the `fixed_count_size` of each nested call is. No field
number reaches the range that is set when there is no extension, so that `decode_extension` is never
called. -/
def noinitLoopIter (layoutOf : List PbField → Layout t) (countAt : ℕ → ℕ) :
    ℕ → ℕ → List PbField → Locals → Decoder
  | 0, _, _, _, dest, _ => (dest, .error "out of fuel")
  | fuel + 1, depth, fields, v, dest, stream =>
    if stream.bytesLeft = 0 then (dest, v.finish stream)
    else match pbDecodeTag stream with
      | .error e => (dest, .error e)
      | .ok (none, stream) => (dest, v.finish stream)
      | .ok (some (wireType, tag), stream) =>
        match PbIter.pbFieldIterFind t v.iter tag with
        | none => (dest, .error "out of fuel")
        | some (false, iter) =>
          match if v.extensionRangeStart ≤ tag then findExtensionField t iter
            else some (false, iter) with
          | none => (dest, .error "out of fuel")
          | some (_, iter) =>
            let v := { v with
              iter := iter
              extensionRangeStart :=
                if v.extensionRangeStart ≤ tag then 2 ^ 32 - 1 else v.extensionRangeStart }
            match pbSkipField wireType stream with
            | .error e => (dest, .error e)
            | .ok (_, stream) => noinitLoopIter layoutOf countAt fuel depth fields v dest stream
        | some (true, iter) =>
          match Locals.fixedCount (countAt depth) { v with iter := iter } with
          | .error e => (dest, .error e)
          | .ok v =>
            -- a submessage is decoded at the address of its member, in a call of its own
            let noinit := fun fields => noinitLoopIter layoutOf countAt fuel (depth + 1) fields
              (.start (layoutOf fields).table v.iter.pData)
            match decodeField noinit wireType (fields.getD v.iter.pos .last) dest stream with
            | (dest, .error e) => (dest, .error e)
            | (dest, .ok stream) => noinitLoopIter layoutOf countAt fuel depth fields v dest stream

variable (t) in
/-- `pb_decode_noinit` of the struct at an address -/
def pbDecodeNoinitIter (layoutOf : List PbField → Layout t) (countAt : ℕ → ℕ) (address : ℕ)
    (fields : List PbField) : Decoder := fun dest stream =>
  noinitLoopIter t layoutOf countAt (stream.bytesLeft + 1) 0 fields
    (.start (layoutOf fields).table address) dest stream

structure Fits (layoutOf : List PbField → Layout t) : Prop where
  tags : ∀ fields, TableOk fields →
    (layoutOf fields).members.map Member.tag = fields.map PbField.tag
  uncounted : ∀ fields, TableOk fields → Uncounted (layoutOf fields)

lemma decodeField_congr {noinit noinit' : List PbField → Decoder} (wireType : ℕ) (field : PbField)
    (dest : PbStruct) (stream : PbIstream) (hok : fieldOk field = true ∨ field = .last)
    (h : ∀ fields, TableOk fields → noinit fields = noinit' fields) :
    decodeField noinit wireType field dest stream =
      decodeField noinit' wireType field dest stream := by
  cases field with
  | uint32 tag => rfl
  | message tag fields =>
    have hfields := tableOk_message (hok.resolve_right PbField.noConfusion)
    simp only [decodeField, decodeStaticField, h fields hfields]
  | oneof tag fields =>
    have hfields := tableOk_oneof (hok.resolve_right PbField.noConfusion)
    simp only [decodeField, decodeStaticField, h fields hfields]
  | callback tag => rfl
  | last => rfl

section
variable {l : Layout t} {fields : List PbField}

lemma find_eq_none (htags : l.members.map Member.tag = fields.map PbField.tag)
    (hok : TableOk fields) {tag : ℕ} {iter iter' : PbFieldIter}
    (h : Search l tag iter false iter') :
    PbDecode.pbFieldIterFind fields tag = none := by
  have hnot := mt h.found_iff.mpr Bool.false_ne_true
  rcases hf : PbDecode.pbFieldIterFind fields tag with _ | field
  · rfl
  · exfalso
    have htag := PbFollow.pbFieldIterFind_tag hf
    rcases PbFields.pbFieldIterFind_mem hf with rfl | hmem
    · -- only an empty table has its terminator found
      unfold PbDecode.pbFieldIterFind at hf
      split at hf
      · refine hnot (Or.inr ⟨?_, htag.symm⟩)
        rw [List.map_nil, List.map_eq_nil_iff] at htags
        exact htags
      · have hlast := hok.all _ (List.mem_of_find?_eq_some hf)
        simp [fieldOk] at hlast
    · have hmem : tag ∈ fields.map PbField.tag := htag ▸ List.mem_map_of_mem hmem
      rw [← htags] at hmem
      obtain ⟨m, hm, hmtag⟩ := List.mem_map.mp hmem
      exact hnot (Or.inl ⟨m, hm, hmtag⟩)

lemma find_eq_some (htags : l.members.map Member.tag = fields.map PbField.tag)
    (hok : TableOk fields) {dest tag : ℕ} {iter iter' : PbFieldIter}
    (hstands : Stands l dest iter') (h : Search l tag iter true iter') :
    PbDecode.pbFieldIterFind fields tag = some (fields.getD iter'.pos .last) ∧
      (fieldOk (fields.getD iter'.pos .last) = true ∨ fields.getD iter'.pos .last = .last) := by
  have hlen : l.members.length = fields.length := by
    simpa using congrArg List.length htags
  have hlt := hstands.lt
  by_cases hnil : fields = []
  · subst hnil
    rcases h.found_iff.mp rfl with ⟨m, hm, -⟩ | ⟨-, rfl⟩
    · rw [List.eq_nil_of_length_eq_zero hlen] at hm
      cases hm
    · exact ⟨rfl, Or.inr rfl⟩
  · have hpos : 0 < fields.length := List.length_pos_iff.mpr hnil
    have hin : iter'.pos < fields.length := by omega
    have hin' : iter'.pos < l.members.length := by omega
    have hmem : fields[iter'.pos] ∈ fields := List.getElem_mem hin
    have htag : fields[iter'.pos].tag = tag := by
      have hentry : (l.members.map Member.tag)[iter'.pos]? =
          (fields.map PbField.tag)[iter'.pos]? := by rw [htags]
      rw [List.getElem?_map, List.getElem?_map, List.getElem?_eq_getElem hin,
        List.getElem?_eq_getElem hin'] at hentry
      rw [← Option.some.inj hentry]
      exact h.tag rfl _ (List.getElem?_eq_getElem hin')
    have hget : fields.getD iter'.pos .last = fields[iter'.pos] := List.getD_eq_getElem _ _ hin
    rw [hget]
    refine ⟨?_, Or.inl (hok.all _ hmem)⟩
    have hfind := hok.find hmem
    rwa [htag] at hfind

/-- The iterator stays in the table when an extension is searched for. -/
lemma extension_stands {dest : ℕ} {iter : PbFieldIter} (h : Stands l dest iter)
    (extensionRangeStart tag : ℕ) : ∃ found iter', (if extensionRangeStart ≤ tag then
      findExtensionField t iter else some (false, iter)) = some (found, iter') ∧
        Stands l dest iter' := by
  by_cases hrange : extensionRangeStart ≤ tag
  · obtain ⟨found, iter', hsearch, hstands, -⟩ :=
      searchFrom_spec (fun _ => id) (fun _ => Points.stands) h fun _ => false
    exact ⟨found, iter', (if_pos hrange).trans hsearch, hstands⟩
  · exact ⟨false, iter, if_neg hrange, h⟩

/-- What a round of the loop comes to for a tag: no entry, even after the search for an extension,
or the entry that looking up finds, with its items counted. -/
inductive Round (l : Layout t) (fields : List PbField) (dest count : ℕ) (v : Locals) (tag : ℕ) :
    Prop
  | missed {iter iter' found} (hfind : PbIter.pbFieldIterFind t v.iter tag = some (false, iter))
      (hextension : (if v.extensionRangeStart ≤ tag then findExtensionField t iter
        else some (false, iter)) = some (found, iter'))
      (hstands : Stands l dest iter') (hlookup : PbDecode.pbFieldIterFind fields tag = none)
  | found {iter v'} (hfind : PbIter.pbFieldIterFind t v.iter tag = some (true, iter))
      (hcount : Locals.fixedCount count { v with iter := iter } = .ok v') (hok : v'.Ok l dest)
      (hlookup : PbDecode.pbFieldIterFind fields tag = some (fields.getD v'.iter.pos .last))
      (hentry : fieldOk (fields.getD v'.iter.pos .last) = true ∨
        fields.getD v'.iter.pos .last = .last)

lemma round_of (htags : l.members.map Member.tag = fields.map PbField.tag)
    (huncounted : Uncounted l) (hok : TableOk fields) {dest : ℕ} {v : Locals} (h : v.Ok l dest)
    (count tag : ℕ) : Round l fields dest count v tag := by
  obtain ⟨found, iter, hfind, hstands, hsearch⟩ :=
    search_of (fun _ => id) (fun _ => Points.stands) h.stands tag
  cases found with
  | false =>
    obtain ⟨found', iter', hextension, hstands'⟩ :=
      extension_stands hstands v.extensionRangeStart tag
    exact .missed hfind hextension hstands' (find_eq_none htags hok hsearch)
  | true =>
    obtain ⟨hlookup, hentry⟩ := find_eq_some htags hok hstands hsearch
    obtain ⟨v', hcount, hv', hpos⟩ := fixedCount_ok huncounted
      (h.move hstands v.extensionRangeStart) count
    have hpos : v'.iter.pos = iter.pos := hpos
    rw [← hpos] at hlookup hentry
    exact .found hfind hcount hv' hlookup hentry

lemma noinitLoopIter_eq {layoutOf : List PbField → Layout t} (hfits : Fits layoutOf)
    (countAt : ℕ → ℕ) (fuel depth : ℕ) (hok : TableOk fields) {address : ℕ} {v : Locals}
    (h : v.Ok (layoutOf fields) address) (dest : PbStruct) (stream : PbIstream) :
    noinitLoopIter t layoutOf countAt fuel depth fields v dest stream =
      noinitLoop fuel fields dest stream := by
  induction fuel generalizing depth fields address v dest stream with
  | zero => rfl
  | succ fuel ih =>
    unfold noinitLoopIter noinitLoop
    by_cases hend : stream.bytesLeft = 0
    · rw [if_pos hend, if_pos hend, finish_ok h]
    rw [if_neg hend, if_neg hend]
    rcases pbDecodeTag stream with e | ⟨_ | ⟨wireType, tag⟩, stream⟩
    · rfl
    · simp only [finish_ok h]
    have hround := round_of (hfits.tags fields hok) (hfits.uncounted fields hok) hok h
      (countAt depth) tag
    cases hround with
    | missed hfind hextension hstands hlookup =>
      simp only [hfind, hextension, hlookup]
      rcases pbSkipField wireType stream with e | ⟨u, stream⟩
      · rfl
      · exact ih depth hok (h.move hstands _) dest stream
    | @found iter v' hfind hcount h' hlookup hentry =>
      have hnoinit : ∀ entries, TableOk entries → noinitLoopIter t layoutOf countAt fuel (depth + 1)
          entries (.start (layoutOf entries).table v'.iter.pData) = noinitLoop fuel entries := by
        intro entries hentries
        funext dest stream
        exact ih (depth + 1) hentries (start_ok (layoutOf entries) v'.iter.pData) dest stream
      simp only [hfind, hcount, hlookup]
      rw [decodeField_congr wireType _ dest stream hentry hnoinit]
      rcases decodeField (noinitLoop fuel) wireType (fields.getD v'.iter.pos .last) dest stream with
        ⟨d, e | stream⟩
      · rfl
      · exact ih depth hok h' d stream

end

/-- **The iterator makes no difference**: `pb_decode_noinit`, which goes round its table with an
iterator, begins each search where the last one ended and counts the items of the repeated fields,
decodes as if every field was looked up from the start of the table, whatever the layouts of the
structs and wherever the struct and the counters are. -/
theorem decode_iter (t : Target) (layoutOf : List PbField → Layout t) (hfits : Fits layoutOf)
    (countAt : ℕ → ℕ) (fields : List PbField) (hok : TableOk fields) (address : ℕ)
    (dest : PbStruct) (stream : PbIstream) :
    pbDecodeNoinitIter t layoutOf countAt address fields dest stream =
      pbDecodeNoinit fields dest stream :=
  noinitLoopIter_eq hfits countAt (stream.bytesLeft + 1) 0 hok
    (start_ok (layoutOf fields) address) dest stream

def memberAt (offset : ℕ) : PbField → Member
  | .callback tag => ⟨tag, .callback, .repeated, offset, 0, 4, 0, false⟩
  | field => ⟨field.tag, .static, .optional, offset, 0, 4, 0, false⟩

lemma memberAt_tag (offset : ℕ) (field : PbField) : (memberAt offset field).tag = field.tag := by
  cases field <;> rfl

lemma memberAt_follows (offset : ℕ) (field field' : PbField) :
    (memberAt offset field).Follows ⟨2, 4⟩ (memberAt (offset + 4) field') := by
  cases field <;> cases field' <;>
    simp [memberAt, Member.Follows, Member.size, Target.sizeMax]

def numberLayout (fields : List PbField) : Layout ⟨2, 4⟩ where
  members := (fields.filter fun field => field.tag ≠ 0).mapIdx fun i => memberAt (4 * i)
  tags := by
    intro m hm
    obtain ⟨i, hi, rfl⟩ := List.mem_mapIdx.mp hm
    rw [memberAt_tag]
    simpa using (List.mem_filter.mp (List.getElem_mem hi)).2
  chain := by
    refine List.isChain_iff_getElem.mpr fun i hi => ?_
    rw [List.getElem_mapIdx, List.getElem_mapIdx, Nat.mul_succ]
    exact memberAt_follows (4 * i) _ _

lemma numberLayout_fits : Fits numberLayout := by
  refine ⟨fun fields hok => ?_, fun fields hok m hm => ?_⟩
  · have hall : (fields.filter fun field => field.tag ≠ 0) = fields := by
      refine List.filter_eq_self.mpr fun field hmem => ?_
      have htag := (tag_of_ok (hok.all field hmem)).1
      simp only [ne_eq, decide_not, Bool.not_eq_true', decide_eq_false_iff_not]
      omega
    simp only [numberLayout, hall]
    refine List.ext_getElem (by simp) fun i hi hi' => ?_
    simp only [List.getElem_map, List.getElem_mapIdx, memberAt_tag]
  · obtain ⟨i, hi, rfl⟩ := List.mem_mapIdx.mp hm
    generalize (fields.filter fun field => field.tag ≠ 0)[i] = field
    cases field <;> simp [memberAt]

/-- Two numbers that come in the other order, with a repeated callback before each of them. -/
theorem decode_iter_backwards : (pbDecodeNoinitIter ⟨2, 4⟩ numberLayout (fun _ => 8192) 4096
    [.uint32 1, .uint32 2, .callback 3] .zero
      (on [0x1A, 0x00, 0x10, 0x05, 0x1A, 0x00, 0x08, 0x07] [])).1.num 1 = 7 := by
  have hdecode := decode_iter ⟨2, 4⟩ numberLayout numberLayout_fits (fun _ => 8192)
    [.uint32 1, .uint32 2, .callback 3] ⟨by decide, by simp [fieldOk]⟩ 4096 .zero
      (on [0x1A, 0x00, 0x10, 0x05, 0x1A, 0x00, 0x08, 0x07] [])
  rw [hdecode]
  decide

end RoombaBrain.PbIterDecode
