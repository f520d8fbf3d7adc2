import RoombaBrain.PbWire

/-!
Messages one after the other.

Bytes that are whole fields can be decoded by themselves: what comes after them is decoded into
the struct they left. So messages are merged by joining their bytes, and a field that is not in
the table can stand between any others.
-/

namespace RoombaBrain.PbMerge

open RoombaBrain.ByteReader RoombaBrain.PbStream RoombaBrain.PbLocal RoombaBrain.PbDecode
  RoombaBrain.PbMessage RoombaBrain.PbFollow RoombaBrain.PbFields RoombaBrain.PbVarint
  RoombaBrain.PbVarint32

variable {fields : List PbField} {v w : List UInt8} {nodes nodes' : List Node}

/-! ### Whole fields -/

/-- The bytes are whole fields, with these entered, whatever comes after them. -/
structure Enters (fields : List PbField) (w : List UInt8) (nodes : List Node) : Prop where
  nodes : ∀ r, (parse fields (w ++ r)).nodes = nodes ++ (parse fields r).nodes
  whole : ∀ r, (parse fields (w ++ r)).whole = (parse fields r).whole

lemma Enters.nil : Enters fields [] [] := ⟨fun _ => rfl, fun _ => rfl⟩

lemma Enters.append (hv : Enters fields v nodes) (hw : Enters fields w nodes') :
    Enters fields (v ++ w) (nodes ++ nodes') where
  nodes r := by rw [List.append_assoc, hv.nodes, hw.nodes, List.append_assoc]
  whole r := by rw [List.append_assoc, hv.whole, hw.whole]

lemma enters_field {c d : List UInt8} {wireType tag : ℕ} {node : Node}
    (hkey : Reads keyReader c (some (wireType, tag)))
    (hbody : Reads (bodyReader parse (pbFieldIterFind fields tag) wireType tag) d (true, node)) :
    Enters fields (c ++ d) [node] where
  nodes r := by
    rw [List.append_assoc, parse_cons hkey hbody]
    rfl
  whole r := by rw [List.append_assoc, parse_cons hkey hbody]

lemma Enters.alone (h : Enters fields w nodes) :
    (parse fields w).nodes = nodes ∧ (parse fields w).whole = true := by
  have hn := h.nodes []
  have hw := h.whole []
  rw [List.append_nil] at hn hw
  exact ⟨by simpa [Parse.nodes] using hn, hw⟩

/-- The bytes are whole fields, up to the last byte: they are well formed, and not ended by a zero
key. -/
def Covered (fields : List PbField) (w : List UInt8) : Prop :=
  (parse fields w).whole = true ∧ ((parse fields w).items.map Prod.fst).flatten = w

lemma Covered.enters (h : Covered fields w) : Enters fields w (parse fields w).nodes := by
  induction hn : w.length using Nat.strongRecOn generalizing w with
  | _ n ih =>
    subst hn
    obtain ⟨hwhole, hbytes⟩ := h
    have hrule := parseField_rule parse fields w
    have heq := parse_eq fields w
    generalize parseField parse fields w = st at hrule heq
    cases hrule with
    | done => exact .nil
    | badKey | broken | bad =>
      rw [heq] at hwhole
      cases hwhole
    | zeroKey r hc hkey =>
      rw [heq] at hbytes
      simp [hc] at hbytes
    | @good c d wireType tag node r hc hkey hbody =>
      have hparse := parse_cons hkey hbody r
      rw [hparse] at hwhole hbytes
      have hlt : r.length < (c ++ (d ++ r)).length := by
        have := List.length_pos_iff.mpr hc
        simp only [List.length_append]
        omega
      have hrest : Covered fields r := by
        refine ⟨hwhole, ?_⟩
        simpa [List.append_assoc] using hbytes
      have hr := ih r.length hlt hrest rfl
      rw [hparse, ← List.append_assoc]
      exact (enters_field hkey hbody).append hr

/-! ### Decoding in parts -/

lemma noinit_on (fields : List PbField) (d : PbStruct) (w m : List UInt8) :
    (pbDecodeNoinit fields d (on w m)).1 = storeAll (parse fields w).nodes d ∧
      ((pbDecodeNoinit fields d (on w m)).2.isOk = (parse fields w).whole) := by
  have h := noinitLoop_follows (w.length + 1) fields d w
  change Leaves (pbDecodeNoinit fields d) w (storeAll (parse fields w).nodes d)
    (parse fields w).whole at h
  rcases hwhole : (parse fields w).whole with _ | _ <;> rw [hwhole] at h
  · obtain ⟨e, he⟩ := h
    rw [he m]
    exact ⟨rfl, rfl⟩
  · obtain ⟨r, hr⟩ := h
    rw [hr m]
    exact ⟨rfl, rfl⟩

/-- **Messages are merged by joining their bytes**: bytes after whole fields are decoded into the
struct that the fields leave, and it is they that decide the success. -/
theorem decode_append (fields : List PbField) (w : List UInt8) (hw : Covered fields w)
    (d : PbStruct) (v m m' : List UInt8) :
    let first := pbDecodeNoinit fields d (on w m')
    let second := pbDecodeNoinit fields first.1 (on v m)
    let both := pbDecodeNoinit fields d (on (w ++ v) m)
    both.1 = second.1 ∧ both.2.isOk = second.2.isOk := by
  have henters := hw.enters
  obtain ⟨hfirst, -⟩ := noinit_on fields d w m'
  obtain ⟨hboth, hok⟩ := noinit_on fields d (w ++ v) m
  obtain ⟨hsecond, hok'⟩ := noinit_on fields (pbDecodeNoinit fields d (on w m')).1 v m
  constructor
  · rw [hboth, hsecond, hfirst, henters.nodes, storeAll_append]
  · rw [hok, hok', henters.whole]

/-- A number is decoded twice, and the second one stands. -/
theorem decode_append_twice :
    ((pbDecodeNoinit [.uint32 1] .zero (on ([0x08, 0x05] ++ [0x08, 0x07]) [])).1).num 1 = 7 := by
  have h := (decode_append [.uint32 1] [0x08, 0x05] ⟨by decide, by decide⟩ .zero [0x08, 0x07]
    [] []).1
  rw [h]
  decide

/-! ### Unknown fields -/

/-- Whole fields that are not in the table, or have a callback, which is not set. -/
inductive Unknown (fields : List PbField) : List UInt8 → Prop
  | nil : Unknown fields []
  | field {c d r wireType tag} (hkey : Reads keyReader c (some (wireType, tag)))
      (hfind : pbFieldIterFind fields tag = none ∨
        pbFieldIterFind fields tag = some (.callback tag))
      (hskip : Reads (pbSkipField wireType) d ()) (hr : Unknown fields r) :
      Unknown fields (c ++ d ++ r)

def Skipped (node : Node) : Prop := ∃ tag, node = .skipped tag

lemma storeAll_skipped (h : ∀ node ∈ nodes, Skipped node) (d : PbStruct) :
    storeAll nodes d = d := by
  induction nodes with
  | nil => rfl
  | cons node nodes ih =>
    obtain ⟨tag, rfl⟩ := h node (by simp)
    exact ih fun node hmem => h node (by simp [hmem])

lemma skipped_reads {d : List UInt8} {wireType tag : ℕ}
    (hfind : pbFieldIterFind fields tag = none ∨
      pbFieldIterFind fields tag = some (.callback tag))
    (hskip : Reads (pbSkipField wireType) d ()) :
    Reads (bodyReader parse (pbFieldIterFind fields tag) wireType tag) d
      (true, .skipped tag) := by
  have hread := hskip.bind (g := fun _ : Unit => (pure (true, Node.skipped tag) :
    Reader (Bool × Node))) (Reads.pure _)
  rw [List.append_nil] at hread
  rcases hfind with hfind | hfind
  · rw [hfind]
    exact hread
  · rw [hfind]
    exact hread

lemma Unknown.enters (h : Unknown fields w) :
    ∃ nodes, (∀ node ∈ nodes, Skipped node) ∧ Enters fields w nodes := by
  induction h with
  | nil => exact ⟨[], by simp, .nil⟩
  | @field c d r wireType tag hkey hfind hskip _ ih =>
    obtain ⟨nodes, hall, hnodes⟩ := ih
    refine ⟨.skipped tag :: nodes, ?_,
      (enters_field hkey (skipped_reads hfind hskip)).append hnodes⟩
    intro node hmem
    rcases List.mem_cons.mp hmem with rfl | hmem
    · exact ⟨tag, rfl⟩
    · exact hall node hmem

/-- **Unknown fields are ignored**, wherever they stand between whole fields. -/
theorem unknown_fields_ignored (fields : List PbField) (w u : List UInt8)
    (hw : Covered fields w) (hu : Unknown fields u) (d : PbStruct) (v m m' : List UInt8) :
    let with' := pbDecodeNoinit fields d (on (w ++ u ++ v) m)
    let without := pbDecodeNoinit fields d (on (w ++ v) m')
    with'.1 = without.1 ∧ with'.2.isOk = without.2.isOk := by
  have henters := hw.enters
  obtain ⟨nodes, hall, hskip⟩ := hu.enters
  obtain ⟨hwith, hok⟩ := noinit_on fields d (w ++ u ++ v) m
  obtain ⟨hwithout, hok'⟩ := noinit_on fields d (w ++ v) m'
  constructor
  · rw [hwith, hwithout, (henters.append hskip).nodes, henters.nodes, storeAll_append,
      storeAll_append, storeAll_append, storeAll_skipped hall]
  · rw [hok, hok', (henters.append hskip).whole, henters.whole]

/-- A third field is ignored where the table has only one. -/
theorem unknown_fields_ignored_third :
    (pbDecodeNoinit [.uint32 1] .zero (on ([0x08, 0x05] ++ [0x18, 0x01] ++ []) [])).1 =
      (pbDecodeNoinit [.uint32 1] .zero (on ([0x08, 0x05] ++ []) [])).1 :=
  (unknown_fields_ignored [.uint32 1] [0x08, 0x05] [0x18, 0x01] ⟨by decide, by decide⟩
    (.field (c := [0x18]) (d := [0x01])
      (key_reads (by omega) (by omega) (by omega) : Reads keyReader (key 0 3) (some (0, 3)))
      (Or.inl rfl) ((skipVarint_reads_iff [0x01]).mpr rfl) .nil) .zero [] [] []).1

end RoombaBrain.PbMerge
