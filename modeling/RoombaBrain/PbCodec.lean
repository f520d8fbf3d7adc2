import RoombaBrain.PbEntered

/-!
Decoding what was encoded.

The struct that is decoded says what the encoded one does, by the table of the reader, whatever
was in the struct before. With one table for both this is the round trip, with an older table it
is the compatibility of a client that sends more than the server knows.
-/

namespace RoombaBrain.PbCodec

open RoombaBrain.ByteReader RoombaBrain.PbStream RoombaBrain.PbDecode RoombaBrain.PbMessage
  RoombaBrain.PbFollow RoombaBrain.PbFields RoombaBrain.PbEncode RoombaBrain.PbWire
  RoombaBrain.PbMerge RoombaBrain.PbSame RoombaBrain.PbEntered

variable {writer reader : List PbField} {src d : PbStruct}

/-! ### The stores of one field -/

def nodeTag : Node → ℕ
  | .uint32 tag _ | .message _ tag _ | .skipped tag => tag

lemma store_frame {node : Node} {t : ℕ} (ht : nodeTag node ≠ t) (h0 : t ≠ 0) (d : PbStruct) :
    (node.store d).num t = d.num t ∧ (node.store d).sub t = d.sub t := by
  have hne : t ≠ nodeTag node := fun he => ht he.symm
  cases node with
  | uint32 tag value =>
    simp only [nodeTag] at hne
    simp [Node.store, hne]
  | message oneof tag fields =>
    simp only [nodeTag] at hne
    cases oneof <;> simp [Node.store, hne, h0]
  | skipped tag => exact ⟨rfl, rfl⟩

lemma storeAll_frame {nodes : List Node} {t : ℕ} (h : ∀ node ∈ nodes, nodeTag node ≠ t)
    (h0 : t ≠ 0) (d : PbStruct) :
    (storeAll nodes d).num t = d.num t ∧ (storeAll nodes d).sub t = d.sub t := by
  induction nodes generalizing d with
  | nil => exact ⟨rfl, rfl⟩
  | cons node nodes ih =>
    obtain ⟨hnum, hsub⟩ := store_frame (h node (by simp)) h0 d
    obtain ⟨hnum', hsub'⟩ := ih (fun n hn => h n (by simp [hn])) (node.store d)
    exact ⟨hnum'.trans hnum, hsub'.trans hsub⟩

lemma mem_nodes {node : Node} :
    node ∈ nodes reader writer src ↔ ∃ field ∈ writer, node ∈ fieldNodes reader field src := by
  induction writer with
  | nil => simp [nodes, fieldNodes.nodes]
  | cons field writer ih =>
    simp only [nodes, fieldNodes.nodes, List.mem_append, List.mem_cons, exists_eq_or_imp]
    exact or_congr_right ih

lemma nodes_append (pre post : List PbField) : nodes reader (pre ++ post) src =
    nodes reader pre src ++ nodes reader post src := by
  induction pre with
  | nil => rfl
  | cons field pre ih =>
    show fieldNodes reader field src ++ nodes reader (pre ++ post) src = _
    rw [ih, ← List.append_assoc]
    rfl

/-- What a field enters: one node at most, with its number, which selects the member of the oneof
that the struct does. -/
lemma fieldNodes_node {field : PbField} {node : Node} (hok : fieldOk field = true)
    (h : node ∈ fieldNodes reader field src) :
    nodeTag node = field.tag ∧ ∀ v, storedTo 0 node = some v → v = src.num 0 := by
  have htag := (tag_of_ok hok).1
  cases field with
  | uint32 tag =>
    have hne : (0 : ℕ) ≠ tag := Nat.ne_of_lt htag
    simp only [fieldNodes] at h
    split at h
    · cases h
    · split at h
      · obtain rfl := List.mem_singleton.mp h
        exact ⟨rfl, fun v hv => by simp [storedTo, hne] at hv⟩
      · obtain rfl := List.mem_singleton.mp h
        exact ⟨rfl, fun v hv => by cases hv⟩
  | message tag fields =>
    simp only [fieldNodes] at h
    split at h
    · cases h
    · split at h
      · obtain rfl := List.mem_singleton.mp h
        exact ⟨rfl, fun v hv => by cases hv⟩
      · obtain rfl := List.mem_singleton.mp h
        exact ⟨rfl, fun v hv => by cases hv⟩
  | oneof tag fields =>
    simp only [fieldNodes] at h
    split at h
    · next hsel =>
      split at h
      · obtain rfl := List.mem_singleton.mp h
        refine ⟨rfl, fun v hv => ?_⟩
        rw [hsel]
        simpa [storedTo] using hv.symm
      · obtain rfl := List.mem_singleton.mp h
        exact ⟨rfl, fun v hv => by cases hv⟩
    · cases h
  | callback tag => cases h
  | last => cases h

/-- One field of the table in what is decoded: the other fields leave it alone. -/
lemma stored_at (hwriter : TableOk writer) {field : PbField} (hmem : field ∈ writer)
    (reader : List PbField) (src d : PbStruct) : ∃ d', d'.num field.tag = d.num field.tag ∧
      d'.sub field.tag = d.sub field.tag ∧
      (storeAll (nodes reader writer src) d).num field.tag =
        (storeAll (fieldNodes reader field src) d').num field.tag ∧
      (storeAll (nodes reader writer src) d).sub field.tag =
        (storeAll (fieldNodes reader field src) d').sub field.tag := by
  have h0 : field.tag ≠ 0 := Nat.ne_of_gt (tag_of_ok (hwriter.all field hmem)).1
  obtain ⟨pre, post, rfl, hpre, hpost⟩ := table_split hwriter hmem
  have hframe : ∀ fields : List PbField, (∀ f ∈ fields, f.tag ≠ field.tag) →
      (∀ f ∈ fields, fieldOk f = true) →
      ∀ node ∈ nodes reader fields src, nodeTag node ≠ field.tag := by
    intro fields hne hok node hnode
    obtain ⟨f, hf, hin⟩ := mem_nodes.mp hnode
    rw [(fieldNodes_node (hok f hf) hin).1]
    exact hne f hf
  have hbefore := storeAll_frame (hframe pre hpre fun f hf => hwriter.all f (by simp [hf])) h0 d
  refine ⟨storeAll (nodes reader pre src) d, hbefore.1, hbefore.2, ?_⟩
  have hafter := storeAll_frame (hframe post hpost fun f hf => hwriter.all f (by simp [hf])) h0
    (storeAll (fieldNodes reader field src) (storeAll (nodes reader pre src) d))
  have hsplit : nodes reader (pre ++ field :: post) src =
      nodes reader pre src ++ (fieldNodes reader field src ++ nodes reader post src) :=
    nodes_append pre (field :: post)
  rw [hsplit, storeAll_append, storeAll_append]
  exact hafter

/-! ### Defaults are not written -/

lemma default_of_all {fields : List PbField} {src : PbStruct}
    (h : pbCheckProto3DefaultValue.allDefault fields src = true) :
    ∀ field ∈ fields, pbCheckProto3DefaultValue field src = true := by
  induction fields with
  | nil => simp
  | cons f fields ih =>
    simp only [pbCheckProto3DefaultValue.allDefault, Bool.and_eq_true] at h
    intro field hmem
    rcases List.mem_cons.mp hmem with rfl | hmem
    · exact h.1
    · exact ih h.2 field hmem

lemma mem_of_find {tag : ℕ} {field : PbField} (h : pbFieldIterFind writer tag = some field)
    (hlast : field ≠ .last) : field ∈ writer :=
  (pbFieldIterFind_mem h).resolve_left hlast

/-- A struct with the writer's defaults says what zeros do to the reader. -/
lemma default_fieldSame (field : PbField) : ∀ (writer : List PbField) (src : PbStruct),
    fieldOk field = true → fieldKnown writer field = true →
    pbCheckProto3DefaultValue.allDefault writer src = true → fieldSame field src .zero := by
  induction field using fieldInduction with
  | uint32 tag =>
    intro writer src hok hknown hall
    have hdef := default_of_all hall _ (mem_of_find (known_uint32 hknown) (by simp))
    simpa [pbCheckProto3DefaultValue, fieldSame] using hdef
  | message tag entries ih =>
    intro writer src hok hknown hall
    obtain ⟨fields, hfind, hfields⟩ := known_message hknown
    have hdef := default_of_all hall _ (mem_of_find hfind (by simp))
    have hentries := tableOk_message hok
    exact same_iff.mpr fun f hf => ih f hf fields (src.sub tag) (hentries.all f hf)
      (hfields f hf) hdef
  | oneof tag entries ih =>
    intro writer src hok hknown hall
    obtain ⟨fields, hfind, hfields⟩ := known_oneof hknown
    have hdef := default_of_all hall _ (mem_of_find hfind (by simp))
    have hzero : src.num 0 = 0 := by simpa [pbCheckProto3DefaultValue] using hdef
    have hne := tag_ne_zero hok
    refine ⟨by rw [hzero, num_zero], fun hsel => ?_⟩
    rw [hzero] at hsel
    exact absurd hsel hne
  | callback tag => exact fun _ _ _ _ _ => trivial
  | last => exact fun _ _ _ _ _ => trivial

/-! ### The struct that is decoded -/

lemma which_stored (hwriter : TableOk writer) (d : PbStruct) :
    (storeAll (nodes reader writer src) d).num 0 = d.num 0 ∨
      (storeAll (nodes reader writer src) d).num 0 = src.num 0 := by
  rw [num_storeAll]
  rcases hlast : lastStored 0 (nodes reader writer src) with _ | v
  · exact Or.inl rfl
  · obtain ⟨node, hnode, hv⟩ := exists_of_lastSome hlast
    obtain ⟨field, hmem, hin⟩ := mem_nodes.mp hnode
    exact Or.inr ((fieldNodes_node (hwriter.all field hmem) hin).2 v hv)

lemma which_selected (hwriter : TableOk writer) {node : Node}
    (hnode : node ∈ nodes reader writer src) {v : UInt32} (hv : storedTo 0 node = some v)
    (d : PbStruct) : (storeAll (nodes reader writer src) d).num 0 = src.num 0 := by
  rw [num_storeAll]
  rcases hlast : lastStored 0 (nodes reader writer src) with _ | u
  · have hnil := List.getLast?_eq_none_iff.mp hlast
    have hmem : v ∈ (nodes reader writer src).filterMap (storedTo 0) :=
      List.mem_filterMap.mpr ⟨node, hnode, hv⟩
    rw [hnil] at hmem
    cases hmem
  · obtain ⟨node', hnode', hu⟩ := exists_of_lastSome hlast
    obtain ⟨field, hmem, hin⟩ := mem_nodes.mp hnode'
    exact (fieldNodes_node (hwriter.all field hmem) hin).2 u hu

lemma decoded_fieldSame (field : PbField) : ∀ (reader writer : List PbField) (src d : PbStruct),
    TableOk reader → TableOk writer → Known writer reader → field ∈ reader →
    Same reader .zero d → fieldSame field src (storeAll (nodes reader writer src) d) := by
  induction field using fieldInduction with
  | uint32 tag =>
    intro reader writer src d hreader hwriter hknown hmem hd
    have hfind := hreader.find hmem
    have hsource := mem_of_find (known_uint32 (hknown _ hmem)) (by simp)
    obtain ⟨d', hnum, -, hstored, -⟩ := stored_at hwriter hsource reader src d
    simp only [PbField.tag] at hfind hnum hstored
    simp only [fieldSame, hstored, fieldNodes, hfind]
    split
    · next hdef =>
      have hzero : src.num tag = 0 := by simpa [pbCheckProto3DefaultValue] using hdef
      have hdzero : (0 : UInt32) = d.num tag := same_iff.mp hd _ hmem
      simp only [Node.store.storeAll, hzero, hnum, ← hdzero]
    · simp [Node.store.storeAll, Node.store]
  | message tag entries ih =>
    intro reader writer src d hreader hwriter hknown hmem hd
    obtain ⟨fields, hsource, hfields⟩ := known_message (hknown _ hmem)
    have hmem' := mem_of_find hsource (by simp)
    have hentries := tableOk_message (hreader.all _ hmem)
    have hfind := hreader.find hmem
    obtain ⟨d', -, hsub, -, hstored⟩ := stored_at hwriter hmem' reader src d
    have hcleared : Same entries .zero (d.sub tag) := same_iff.mp hd _ hmem
    simp only [PbField.tag] at hfind hsub hstored
    simp only [fieldSame, hstored, fieldNodes, hfind]
    split
    · -- it is not written, and left with its defaults
      next hdef =>
      have hzero : Same entries (src.sub tag) .zero := same_iff.mpr fun f hf =>
        default_fieldSame f fields (src.sub tag) (hentries.all f hf) (hfields f hf) hdef
      simp only [Node.store.storeAll, hsub]
      exact hzero.trans hcleared
    · -- it is decoded into what was there
      simp only [Node.store.storeAll, Node.store, sub_setSub, if_true, hsub]
      exact same_iff.mpr fun f hf => ih f hf entries fields (src.sub tag) (d.sub tag) hentries
        (tableOk_message (hwriter.all _ hmem')) hfields hf hcleared
  | oneof tag entries ih =>
    intro reader writer src d hreader hwriter hknown hmem hd
    obtain ⟨fields, hsource, hfields⟩ := known_oneof (hknown _ hmem)
    have hmem' := mem_of_find hsource (by simp)
    have hentries := tableOk_oneof (hreader.all _ hmem)
    have hfind := hreader.find hmem
    have hcleared : ¬ d.num 0 = tag.toUInt32 := fun he =>
      tag_ne_zero (hreader.all _ hmem) ((same_iff.mp hd _ hmem).1.mpr he)
    obtain ⟨d', -, -, -, hstored⟩ := stored_at hwriter hmem' reader src d
    simp only [PbField.tag] at hfind hstored
    by_cases hsel : src.num 0 = tag.toUInt32
    · -- the member is written, and decoded into zeros
      have hnodes : fieldNodes reader (.oneof tag fields) src =
          [.message true tag (nodes entries fields (src.sub tag))] := by
        simp only [fieldNodes, hfind, if_pos hsel]
      have hwhich := which_selected hwriter (v := tag.toUInt32)
        (mem_nodes.mpr ⟨_, hmem', by rw [hnodes]; exact List.mem_singleton_self _⟩)
        (by simp [storedTo]) d
      refine ⟨by rw [hwhich], fun _ => ?_⟩
      rw [hstored, hnodes]
      simp only [Node.store.storeAll, Node.store, sub_setSub, if_true]
      exact same_iff.mpr fun f hf => ih f hf entries fields (src.sub tag) .zero hentries
        (tableOk_oneof (hwriter.all _ hmem')) hfields hf (same_refl entries .zero)
    · refine ⟨iff_of_false hsel fun hwhich => ?_, fun h => absurd h hsel⟩
      rcases which_stored hwriter d with hkept | hset
      · exact hcleared (hkept ▸ hwhich)
      · exact hsel (hset ▸ hwhich)
  | callback tag => exact fun _ _ _ _ _ _ _ _ _ => trivial
  | last => exact fun _ _ _ _ _ _ _ _ _ => trivial

lemma decode_wire (hwriter : TableOk writer) (hreader : TableOk reader)
    (hknown : Known writer reader) (src dest : PbStruct)
    (hsize : (wire writer src).length < 2 ^ 32) (m : List UInt8) :
    ∃ d s, pbDecode (on (wire writer src) m) reader dest = (d, .ok s) ∧ Same reader src d := by
  obtain ⟨hnodes, hwhole⟩ := (enters_wire hwriter hknown hsize).alone
  obtain ⟨hd, hok⟩ := noinit_on reader (pbMessageSetToDefaults reader dest) (wire writer src) m
  rw [hnodes] at hd
  rw [hwhole] at hok
  have hsame : Same reader src
      (storeAll (nodes reader writer src) (pbMessageSetToDefaults reader dest)) :=
    same_iff.mpr fun f hf => decoded_fieldSame f reader writer src _ hreader hwriter hknown hf
      (same_defaults hreader dest)
  rcases hr : pbDecodeNoinit reader (pbMessageSetToDefaults reader dest)
    (on (wire writer src) m) with ⟨d, e | s⟩
  · rw [hr] at hok
    cases hok
  · rw [hr] at hd
    have hstruct : d = storeAll (nodes reader writer src) (pbMessageSetToDefaults reader dest) := hd
    exact ⟨d, s, hr, by rwa [hstruct]⟩

lemma known_self (field : PbField) : ∀ fields : List PbField, TableOk fields → field ∈ fields →
    fieldKnown fields field = true := by
  induction field using fieldInduction with
  | uint32 tag =>
    intro fields hok hmem
    have hfind : pbFieldIterFind fields tag = _ := hok.find hmem
    simp only [fieldKnown, hfind]
  | message tag entries ih =>
    intro fields hok hmem
    have hfind : pbFieldIterFind fields tag = _ := hok.find hmem
    have hentries := tableOk_message (hok.all _ hmem)
    simp only [fieldKnown, hfind]
    exact allKnown_iff.mpr fun f hf => ih f hf entries hentries hf
  | oneof tag entries ih =>
    intro fields hok hmem
    have hfind : pbFieldIterFind fields tag = _ := hok.find hmem
    have hentries := tableOk_oneof (hok.all _ hmem)
    simp only [fieldKnown, hfind]
    exact allKnown_iff.mpr fun f hf => ih f hf entries hentries hf
  | callback tag => exact fun _ _ _ => rfl
  | last => exact fun _ _ _ => rfl

/-- **The round trip**: whatever struct is encoded into a buffer with room for it is decoded again,
into one that says the same, whatever was there before and whatever follows in the memory. So
structs are encoded alike only when they say the same. -/
theorem decode_encode (fields : List PbField) (hok : TableOk fields) (src : PbStruct)
    (bufsize : ℕ) (hroom : (wire fields src).length ≤ bufsize) (hsize : bufsize < 2 ^ 32) :
    ∃ out, pbEncode (pbOstreamFromBuffer bufsize) fields src = (.ok (), out) ∧
      (∀ dest m, ∃ d s, pbDecode (pbIstreamFromBuffer (out.state ++ m) out.bytesWritten) fields
        dest = (d, .ok s) ∧ Same fields src d) ∧
      ∀ src', pbEncode (pbOstreamFromBuffer bufsize) fields src' = (.ok (), out) →
        (wire fields src').length < 2 ^ 32 → Same fields src src' := by
  have hself : Known fields fields := fun f hf => known_self f fields hok hf
  refine ⟨_, pbEncode_room hok (by omega) hroom, fun dest m => ?_, fun src' hsame hsize' => ?_⟩
  · have h := decode_wire hok hok hself src dest (by omega) m
    simpa [on, pbIstreamFromBuffer, pbOstreamFromBuffer] using h
  · -- both are decoded into the same struct
    obtain ⟨-, hout⟩ := pbEncode_ok hok hsize' hsame
    have hbytes : wire fields src = wire fields src' := by
      have hstate := congrArg PbOstream.state hout
      simpa [pbOstreamFromBuffer] using hstate
    obtain ⟨d, s, hd, hsrc⟩ := decode_wire hok hok hself src .zero (by omega) []
    obtain ⟨d', s', hd', hsrc'⟩ := decode_wire hok hok hself src' .zero hsize' []
    rw [hbytes, hd'] at hd
    obtain ⟨rfl, -⟩ := Prod.mk.inj hd
    exact hsrc.trans hsrc'.symm

/-- A member of a oneof with a number in it. -/
theorem decode_encode_member : ∃ out,
    pbEncode (pbOstreamFromBuffer 10) [.oneof 2 [.uint32 1]]
      ((PbStruct.zero.setNum 0 2).setSub 2 (PbStruct.zero.setNum 1 5)) = (.ok (), out) ∧
    ∀ dest m, ∃ d s, pbDecode (pbIstreamFromBuffer (out.state ++ m) out.bytesWritten)
      [.oneof 2 [.uint32 1]] dest = (d, .ok s) ∧ (d.sub 2).num 1 = 5 := by
  obtain ⟨out, hout, hdecode, -⟩ := decode_encode [.oneof 2 [.uint32 1]]
    ⟨by decide, by simp [fieldOk, fieldOk.allOk]⟩
    ((PbStruct.zero.setNum 0 2).setSub 2 (PbStruct.zero.setNum 1 5)) 10 (by decide) (by omega)
  refine ⟨out, hout, fun dest m => ?_⟩
  obtain ⟨d, s, hd, hsame⟩ := hdecode dest m
  exact ⟨d, s, hd, (hsame.1.2 rfl).1.symm⟩

/-- **Compatibility**: what a newer client sends is decoded by an older server without an error,
into a struct that says the same as far as the server can tell. -/
theorem decode_newer (writer reader : List PbField) (hwriter : TableOk writer)
    (hreader : TableOk reader) (hknown : Known writer reader) (src dest : PbStruct)
    (bufsize : ℕ) (hroom : (wire writer src).length ≤ bufsize) (hsize : bufsize < 2 ^ 32)
    (m : List UInt8) :
    ∃ out d s, pbEncode (pbOstreamFromBuffer bufsize) writer src = (.ok (), out) ∧
      pbDecode (pbIstreamFromBuffer (out.state ++ m) out.bytesWritten) reader dest =
        (d, .ok s) ∧ Same reader src d := by
  obtain ⟨d, s, hd, hsame⟩ := decode_wire hwriter hreader hknown src dest (by omega) m
  refine ⟨_, d, s, pbEncode_room hwriter (by omega) hroom, ?_, hsame⟩
  simpa [on, pbIstreamFromBuffer, pbOstreamFromBuffer] using hd

/-- A reader with one field, and a writer with two. -/
theorem decode_newer_two : ∃ out d s,
    pbEncode (pbOstreamFromBuffer 10) [.uint32 1, .uint32 2]
      ((PbStruct.zero.setNum 1 5).setNum 2 6) = (.ok (), out) ∧
    pbDecode (pbIstreamFromBuffer (out.state ++ []) out.bytesWritten) [.uint32 1] .zero =
      (d, .ok s) ∧ 5 = d.num 1 := by
  obtain ⟨out, d, s, hout, hd, hsame⟩ := decode_newer [.uint32 1, .uint32 2] [.uint32 1]
    ⟨by decide, by simp [fieldOk]⟩ ⟨by decide, by simp [fieldOk]⟩
    (fun f hf => by obtain rfl := List.mem_singleton.mp hf; rfl)
    ((PbStruct.zero.setNum 1 5).setNum 2 6) .zero 10 (by decide) (by omega) []
  exact ⟨out, d, s, hout, hd, hsame.1⟩

end RoombaBrain.PbCodec
