import RoombaBrain.PbWire

/-!
Structs that say the same.

Two structs say the same by a table when its numbers agree, the same member of the oneof is
selected, and so on in the submessages. Cells that no table tells, and members that are not
selected, do not count. A struct set to its defaults says what a struct of zeros does.
-/

namespace RoombaBrain.PbSame

open RoombaBrain.PbDecode RoombaBrain.PbEncode RoombaBrain.PbWire

/-- Induction over a table entry, with the entries of its submessage. -/
@[elab_as_elim]
lemma fieldInduction {motive : PbField → Prop} (uint32 : ∀ tag, motive (.uint32 tag))
    (message : ∀ tag fields, (∀ field ∈ fields, motive field) → motive (.message tag fields))
    (oneof : ∀ tag fields, (∀ field ∈ fields, motive field) → motive (.oneof tag fields))
    (callback : ∀ tag, motive (.callback tag)) (last : motive .last) (field : PbField) :
    motive field :=
  @PbField.rec motive (fun fields => ∀ field ∈ fields, motive field)
    uint32 message oneof callback last (by simp)
    (fun _ _ h hs => by
      intro f hf
      rcases List.mem_cons.mp hf with rfl | hf
      · exact h
      · exact hs f hf) field

def fieldSame : PbField → PbStruct → PbStruct → Prop
  | .uint32 tag, a, b => a.num tag = b.num tag
  | .message tag fields, a, b => allSame fields (a.sub tag) (b.sub tag)
  | .oneof tag fields, a, b =>
    (a.num 0 = tag.toUInt32 ↔ b.num 0 = tag.toUInt32) ∧
      (a.num 0 = tag.toUInt32 → allSame fields (a.sub tag) (b.sub tag))
  | .callback _, _, _ | .last, _, _ => True
where
  allSame : List PbField → PbStruct → PbStruct → Prop
    | [], _, _ => True
    | field :: fields, a, b => fieldSame field a b ∧ allSame fields a b

abbrev Same := fieldSame.allSame

variable {fields : List PbField} {a b c : PbStruct}

lemma same_iff : Same fields a b ↔ ∀ field ∈ fields, fieldSame field a b := by
  induction fields with
  | nil => simp [fieldSame.allSame]
  | cons field fields ih => simp [fieldSame.allSame, ih]

lemma fieldSame_refl (field : PbField) : ∀ a, fieldSame field a a := by
  induction field using fieldInduction with
  | uint32 tag => exact fun _ => rfl
  | message tag fields ih => exact fun a => same_iff.mpr fun f hf => ih f hf _
  | oneof tag fields ih => exact fun a => ⟨Iff.rfl, fun _ => same_iff.mpr fun f hf => ih f hf _⟩
  | callback tag => exact fun _ => trivial
  | last => exact fun _ => trivial

lemma fieldSame_symm (field : PbField) : ∀ a b, fieldSame field a b → fieldSame field b a := by
  induction field using fieldInduction with
  | uint32 tag => exact fun _ _ h => Eq.symm h
  | message tag fields ih =>
    exact fun a b h => same_iff.mpr fun f hf => ih f hf _ _ (same_iff.mp h f hf)
  | oneof tag fields ih =>
    rintro a b ⟨hwhich, hsub⟩
    exact ⟨hwhich.symm, fun hb => same_iff.mpr fun f hf =>
      ih f hf _ _ (same_iff.mp (hsub (hwhich.mpr hb)) f hf)⟩
  | callback tag => exact fun _ _ _ => trivial
  | last => exact fun _ _ _ => trivial

lemma fieldSame_trans (field : PbField) :
    ∀ a b c, fieldSame field a b → fieldSame field b c → fieldSame field a c := by
  induction field using fieldInduction with
  | uint32 tag => exact fun _ _ _ h h' => Eq.trans h h'
  | message tag fields ih =>
    exact fun a b c h h' => same_iff.mpr fun f hf =>
      ih f hf _ _ _ (same_iff.mp h f hf) (same_iff.mp h' f hf)
  | oneof tag fields ih =>
    rintro a b c ⟨hwhich, hsub⟩ ⟨hwhich', hsub'⟩
    exact ⟨hwhich.trans hwhich', fun ha => same_iff.mpr fun f hf =>
      ih f hf _ _ _ (same_iff.mp (hsub ha) f hf) (same_iff.mp (hsub' (hwhich.mp ha)) f hf)⟩
  | callback tag => exact fun _ _ _ _ _ => trivial
  | last => exact fun _ _ _ _ _ => trivial

lemma same_refl (fields : List PbField) (a : PbStruct) : Same fields a a :=
  same_iff.mpr fun f _ => fieldSame_refl f a

lemma Same.symm (h : Same fields a b) : Same fields b a :=
  same_iff.mpr fun f hf => fieldSame_symm f a b (same_iff.mp h f hf)

lemma Same.trans (h : Same fields a b) (h' : Same fields b c) : Same fields a c :=
  same_iff.mpr fun f hf => fieldSame_trans f a b c (same_iff.mp h f hf) (same_iff.mp h' f hf)

/-! ### Numbers of fields -/

lemma tag_ne_zero {field : PbField} (h : fieldOk field = true) :
    (0 : UInt32) ≠ field.tag.toUInt32 := by
  obtain ⟨h0, hlt⟩ := tag_of_ok h
  intro he
  have hnat := congrArg UInt32.toNat he
  simp only [Nat.toUInt32, UInt32.toNat_ofNat', UInt32.toNat_zero] at hnat
  omega

lemma tag_injective {field field' : PbField} (h : fieldOk field = true)
    (h' : fieldOk field' = true) (he : field.tag.toUInt32 = field'.tag.toUInt32) :
    field.tag = field'.tag := by
  obtain ⟨-, hlt⟩ := tag_of_ok h
  obtain ⟨-, hlt'⟩ := tag_of_ok h'
  have hnat := congrArg UInt32.toNat he
  simp only [Nat.toUInt32, UInt32.toNat_ofNat'] at hnat
  omega

/-- A field of a table by itself: the fields before and after it have other numbers. -/
lemma table_split (h : TableOk fields) {field : PbField} (hmem : field ∈ fields) :
    ∃ pre post, fields = pre ++ field :: post ∧
      (∀ f ∈ pre, f.tag ≠ field.tag) ∧ ∀ f ∈ post, f.tag ≠ field.tag := by
  obtain ⟨pre, post, rfl⟩ := List.append_of_mem hmem
  have hnodup := h.nodup
  rw [List.map_append, List.map_cons, List.nodup_append] at hnodup
  obtain ⟨-, hpost, hpre⟩ := hnodup
  refine ⟨pre, post, rfl, fun f hf => ?_, fun f hf he => ?_⟩
  · exact hpre _ (List.mem_map_of_mem hf) _ (by simp)
  · exact (List.nodup_cons.mp hpost).1 (he ▸ List.mem_map_of_mem hf)

/-! ### Defaults -/

lemma default_frame (field : PbField) {t : ℕ} (ht : field.tag ≠ t) (h0 : t ≠ 0) (d : PbStruct) :
    (pbFieldSetToDefault field d).num t = d.num t ∧
      (pbFieldSetToDefault field d).sub t = d.sub t := by
  cases field with
  | uint32 tag =>
    have hne : t ≠ tag := fun he => ht he.symm
    simp [pbFieldSetToDefault, hne]
  | message tag fields =>
    have hne : t ≠ tag := fun he => ht he.symm
    simp [pbFieldSetToDefault, hne]
  | oneof tag fields => simp [pbFieldSetToDefault, h0]
  | callback tag => exact ⟨rfl, rfl⟩
  | last => exact ⟨rfl, rfl⟩

lemma defaults_frame {t : ℕ} (h0 : t ≠ 0) (h : ∀ f ∈ fields, f.tag ≠ t) (d : PbStruct) :
    (pbMessageSetToDefaults fields d).num t = d.num t ∧
      (pbMessageSetToDefaults fields d).sub t = d.sub t := by
  induction fields generalizing d with
  | nil => exact ⟨rfl, rfl⟩
  | cons field fields ih =>
    obtain ⟨hnum, hsub⟩ := default_frame field (h field (by simp)) h0 d
    obtain ⟨hnum', hsub'⟩ := ih (fun f hf => h f (by simp [hf])) (pbFieldSetToDefault field d)
    exact ⟨hnum'.trans hnum, hsub'.trans hsub⟩

lemma defaults_append (pre post : List PbField) (d : PbStruct) :
    pbMessageSetToDefaults (pre ++ post) d =
      pbMessageSetToDefaults post (pbMessageSetToDefaults pre d) := by
  induction pre generalizing d with
  | nil => rfl
  | cons field pre ih => exact ih (pbFieldSetToDefault field d)

lemma defaults_which (d : PbStruct) (hok : ∀ f ∈ fields, fieldOk f = true)
    (h : d.num 0 = 0 ∨ ∃ tag entries, .oneof tag entries ∈ fields) :
    (pbMessageSetToDefaults fields d).num 0 = 0 := by
  induction fields generalizing d with
  | nil =>
    rcases h with h | ⟨tag, entries, hmem⟩
    · exact h
    · cases hmem
  | cons field fields ih =>
    refine ih (pbFieldSetToDefault field d) (fun f hf => hok f (by simp [hf])) ?_
    have htag := (tag_of_ok (hok field (by simp))).1
    cases field with
    | uint32 tag =>
      have hne : ¬ 0 = tag := Nat.ne_of_lt htag
      simpa [pbFieldSetToDefault, hne] using h
    | message tag fields => simpa [pbFieldSetToDefault] using h
    | oneof tag fields => exact Or.inl rfl
    | callback tag => simpa [pbFieldSetToDefault] using h
    | last => simpa [pbFieldSetToDefault] using h

lemma defaults_at (hok : TableOk fields) {field : PbField} (hmem : field ∈ fields)
    (d : PbStruct) : ∃ d', d'.sub field.tag = d.sub field.tag ∧
      (pbMessageSetToDefaults fields d).num field.tag =
        (pbFieldSetToDefault field d').num field.tag ∧
      (pbMessageSetToDefaults fields d).sub field.tag =
        (pbFieldSetToDefault field d').sub field.tag := by
  have h0 : field.tag ≠ 0 := Nat.ne_of_gt (tag_of_ok (hok.all field hmem)).1
  obtain ⟨pre, post, rfl, hpre, hpost⟩ := table_split hok hmem
  refine ⟨pbMessageSetToDefaults pre d, (defaults_frame h0 hpre d).2, ?_⟩
  rw [defaults_append]
  exact defaults_frame h0 hpost _

lemma defaults_fieldSame (field : PbField) : ∀ (fields : List PbField) (d : PbStruct),
    TableOk fields → field ∈ fields →
      fieldSame field .zero (pbMessageSetToDefaults fields d) := by
  induction field using fieldInduction with
  | uint32 tag =>
    intro fields d hok hmem
    obtain ⟨d', -, hnum, -⟩ := defaults_at hok hmem d
    have hzero : (pbMessageSetToDefaults fields d).num tag = 0 := by
      simpa [pbFieldSetToDefault, PbField.tag] using hnum
    exact hzero.symm
  | message tag entries ih =>
    intro fields d hok hmem
    obtain ⟨d', hsub', -, hsub⟩ := defaults_at hok hmem d
    simp only [pbFieldSetToDefault, PbField.tag, sub_setSub, if_true] at hsub
    have hentries := tableOk_message (hok.all _ hmem)
    simp only [fieldSame, hsub, sub_zero]
    exact same_iff.mpr fun f hf => ih f hf entries _ hentries hf
  | oneof tag entries ih =>
    intro fields d hok hmem
    have hwhich := defaults_which d hok.all (Or.inr ⟨tag, entries, hmem⟩)
    simp only [fieldSame, hwhich, num_zero, true_and, iff_self]
    exact fun h => absurd h (tag_ne_zero (hok.all _ hmem))
  | callback tag => exact fun _ _ _ _ => trivial
  | last => exact fun _ _ _ _ => trivial

/-- **A struct set to its defaults says what zeros do**, whatever it held before. -/
theorem same_defaults (hok : TableOk fields) (d : PbStruct) :
    Same fields .zero (pbMessageSetToDefaults fields d) :=
  same_iff.mpr fun f hf => defaults_fieldSame f fields d hok hf

end RoombaBrain.PbSame
