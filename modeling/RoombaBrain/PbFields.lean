import Mathlib.Data.List.Induction
import RoombaBrain.PbFollow

/-!
The fields of a message, and what they leave in its struct.

The fields entered are fields of the table. The last store to a cell stands, and the last
member entered is the one the oneof selects. Fields can be parsed one at a time, and bytes cut
off inside a field leave the fields before it.
-/

namespace RoombaBrain.PbFields

open RoombaBrain.ByteReader RoombaBrain.PbStream RoombaBrain.PbLocal RoombaBrain.PbDecode
  RoombaBrain.PbMessage RoombaBrain.PbFollow

/-! ### The fields entered are fields of the table -/

/-- The field has an entry in the table, and so have the fields entered in it. -/
inductive FieldOf : List PbField → Node → Prop
  | uint32 {fields tag} (value) (h : .uint32 tag ∈ fields) : FieldOf fields (.uint32 tag value)
  | message {fields tag entries nodes} (h : .message tag entries ∈ fields)
      (hn : ∀ node ∈ nodes, FieldOf entries node) : FieldOf fields (.message false tag nodes)
  | oneof {fields tag entries nodes} (h : .oneof tag entries ∈ fields)
      (hn : ∀ node ∈ nodes, FieldOf entries node) : FieldOf fields (.message true tag nodes)
  | skipped {fields} (tag) : FieldOf fields (.skipped tag)

lemma pbFieldIterFind_mem {fields : List PbField} {tag : ℕ} {field : PbField}
    (h : pbFieldIterFind fields tag = some field) : field = .last ∨ field ∈ fields := by
  unfold pbFieldIterFind at h
  split at h
  · split at h
    · exact Or.inl (Option.some.inj h).symm
    · cases h
  · exact Or.inr (List.mem_of_find?_eq_some h)

def AllOf (inner : List PbField → List UInt8 → Parse) : Prop :=
  ∀ fields w, ∀ node ∈ (inner fields w).nodes, FieldOf fields node

variable {inner : List PbField → List UInt8 → Parse} {fields : List PbField}

lemma bodyReader_of (hin : AllOf inner) {wireType tag : ℕ} {d : List UInt8} {ok : Bool}
    {node : Node}
    (hd : Reads (bodyReader inner (pbFieldIterFind fields tag) wireType tag) d (ok, node)) :
    FieldOf fields node := by
  rcases hfind : pbFieldIterFind fields tag with _ | field
  · rw [hfind] at hd
    obtain ⟨u, hv, -⟩ := hd.bind_pure_inv (pbSkipField_local wireType)
    cases hv
    exact .skipped tag
  rw [hfind] at hd
  have htag := pbFieldIterFind_tag hfind
  have hmem := pbFieldIterFind_mem hfind
  rcases field with tag' | ⟨tag', entries⟩ | ⟨tag', entries⟩ | tag' | _
  · obtain ⟨value, hv, -⟩ := hd.bind_pure_inv pbDecodeVarint_local
    cases hv
    cases htag
    exact .uint32 _ (by simpa [PbField.tag] using hmem)
  · obtain ⟨content, hv, -⟩ := hd.bind_pure_inv contentReader_local
    cases hv
    cases htag
    exact .message (by simpa [PbField.tag] using hmem) (hin entries content)
  · obtain ⟨content, hv, -⟩ := hd.bind_pure_inv contentReader_local
    cases hv
    cases htag
    exact .oneof (by simpa [PbField.tag] using hmem) (hin entries content)
  · obtain ⟨u, hv, -⟩ := hd.bind_pure_inv (pbSkipField_local wireType)
    cases hv
    exact .skipped tag
  · obtain ⟨c, x, value, rfl, -, hx⟩ := hd.bind_inv pbDecodeVarint_local fun _ => Local.fail _
    cases hx [] []

lemma brokenNode_of {tag : ℕ} {node : Node}
    (h : node ∈ brokenNode (pbFieldIterFind fields tag) tag) : FieldOf fields node := by
  rcases hfind : pbFieldIterFind fields tag with _ | field
  · simp [brokenNode, hfind] at h
  have htag := pbFieldIterFind_tag hfind
  have hmem := pbFieldIterFind_mem hfind
  rw [hfind] at h
  rcases field with tag' | ⟨tag', entries⟩ | ⟨tag', entries⟩ | tag' | _
  · simp [brokenNode] at h
  · obtain rfl := List.mem_singleton.mp h
    cases htag
    exact .message (by simpa [PbField.tag] using hmem) (by simp)
  · obtain rfl := List.mem_singleton.mp h
    cases htag
    exact .oneof (by simpa [PbField.tag] using hmem) (by simp)
  · simp [brokenNode] at h
  · simp [brokenNode] at h

lemma parseLoop_of (fuel : ℕ) : AllOf (parseLoop fuel) := by
  induction fuel with
  | zero => exact fun fields w node h => by simp [parseLoop, Parse.nodes] at h
  | succ fuel ih =>
    intro fields w node hmem
    have hrule := parseField_rule (parseLoop fuel) fields w
    rw [parseLoop] at hmem
    generalize parseField (parseLoop fuel) fields w = st at hrule hmem
    cases hrule with
    | done | badKey | zeroKey => simp [Parse.nodes] at hmem
    | broken hc hkey hbody =>
      exact brokenNode_of (by simpa [Parse.nodes] using hmem)
    | bad r hc hkey hbody =>
      obtain rfl : node = _ := by simpa [Parse.nodes] using hmem
      exact bodyReader_of ih hbody
    | good r hc hkey hbody =>
      simp only [Parse.nodes, List.map_cons, List.mem_cons] at hmem
      rcases hmem with rfl | hmem
      · exact bodyReader_of ih hbody
      · exact ih fields r node hmem

/-- **Every field entered is one of the message's table.** -/
theorem parse_of (fields : List PbField) (w : List UInt8) :
    ∀ node ∈ (parse fields w).nodes, FieldOf fields node :=
  parseLoop_of (w.length + 1) fields w

/-! ### The last store stands -/

def lastSome {α β : Type} (f : α → Option β) (l : List α) : Option β :=
  (l.filterMap f).getLast?

@[simp] lemma lastSome_nil {α β : Type} (f : α → Option β) : lastSome f [] = none := rfl

lemma lastSome_append {α β : Type} (f : α → Option β) (l l' : List α) :
    lastSome f (l ++ l') = (lastSome f l').or (lastSome f l) := by
  simp [lastSome, List.filterMap_append]

lemma lastSome_singleton {α β : Type} (f : α → Option β) (a : α) : lastSome f [a] = f a := by
  rcases h : f a with _ | b <;> simp [lastSome, h]

lemma lastSome_cons {α β : Type} (f : α → Option β) (a : α) (l : List α) :
    lastSome f (a :: l) = (lastSome f l).or (f a) := by
  rw [← lastSome_singleton f a, ← lastSome_append, List.singleton_append]

lemma exists_of_lastSome {α β : Type} {f : α → Option β} {l : List α} {b : β}
    (h : lastSome f l = some b) : ∃ a ∈ l, f a = some b :=
  List.mem_filterMap.mp (List.mem_of_getLast? h)

def storedTo (slot : ℕ) : Node → Option UInt32
  | .uint32 tag value => if slot = tag then some value else none
  | .message true tag _ => if slot = 0 then some tag.toUInt32 else none
  | .message false _ _ | .skipped _ => none

/-- The member of the oneof that a field is, with the fields entered in it. -/
def memberOf : Node → Option (ℕ × List Node)
  | .message true tag fields => some (tag, fields)
  | _ => none

def lastStored (slot : ℕ) (nodes : List Node) : Option UInt32 := lastSome (storedTo slot) nodes

def lastMember (nodes : List Node) : Option (ℕ × List Node) := lastSome memberOf nodes

lemma storeAll_append (nodes nodes' : List Node) (d : PbStruct) :
    storeAll (nodes ++ nodes') d = storeAll nodes' (storeAll nodes d) := by
  induction nodes generalizing d with
  | nil => rfl
  | cons node nodes ih => exact ih (node.store d)

lemma storeAll_concat (nodes : List Node) (node : Node) (d : PbStruct) :
    storeAll (nodes ++ [node]) d = node.store (storeAll nodes d) := storeAll_append nodes [node] d

lemma num_store (node : Node) (d : PbStruct) (slot : ℕ) :
    (node.store d).num slot = (storedTo slot node).getD (d.num slot) := by
  rcases node with ⟨tag, value⟩ | ⟨_ | _, tag, nodes⟩ | tag
  · simp only [Node.store, storedTo, num_setNum]
    split <;> rfl
  · rfl
  · simp only [Node.store, storedTo, num_setSub, num_setNum]
    split <;> rfl
  · rfl

lemma num_storeAll (nodes : List Node) (d : PbStruct) (slot : ℕ) :
    (storeAll nodes d).num slot = (lastStored slot nodes).getD (d.num slot) := by
  induction nodes using List.reverseRecOn with
  | nil => rfl
  | append_singleton nodes node ih =>
    rw [storeAll_concat, num_store, ih, lastStored, lastStored, lastSome_append,
      lastSome_singleton]
    cases storedTo slot node <;> rfl

/-- The table of a message whose submessages are all members of its oneof. -/
def OneofOnly (fields : List PbField) : Prop :=
  ∀ field ∈ fields, match field with
    | .message _ _ => False
    | .uint32 tag => tag ≠ 0
    | _ => True

instance (fields : List PbField) : Decidable (OneofOnly fields) :=
  @List.decidableBAll _ _
    (fun | .message _ _ => .isFalse id
         | .uint32 _ => inferInstanceAs (Decidable (_ ≠ _))
         | .oneof _ _ | .callback _ | .last => .isTrue trivial) fields

/-- The oneof of a message selects its last member entered, which holds the fields entered in
it. -/
lemma storeAll_member {nodes : List Node} (hf : OneofOnly fields)
    (hn : ∀ node ∈ nodes, FieldOf fields node) :
    match lastMember nodes with
    | none => (storeAll nodes .zero).num 0 = 0
    | some (tag, inner) => (storeAll nodes .zero).num 0 = tag.toUInt32 ∧
        (storeAll nodes .zero).sub tag = storeAll inner .zero := by
  induction nodes using List.reverseRecOn with
  | nil => rfl
  | append_singleton nodes node ih =>
    have ih := ih fun node h => hn node (by simp [h])
    have hnode := hn node (by simp)
    rw [storeAll_concat, lastMember, lastSome_append, lastSome_singleton]
    cases hnode with
    | @uint32 _ tag value h =>
      have htag : (0 : ℕ) ≠ tag := (hf _ h).symm
      simpa [Node.store, memberOf, lastMember, htag] using ih
    | message h => exact absurd (hf _ h) id
    | oneof h hin => simp [Node.store, memberOf]
    | skipped tag => simpa [Node.store, memberOf, lastMember] using ih

lemma lastMember_of {nodes inner : List Node} {tag : ℕ}
    (hn : ∀ node ∈ nodes, FieldOf fields node) (h : lastMember nodes = some (tag, inner)) :
    ∃ entries, .oneof tag entries ∈ fields ∧ ∀ node ∈ inner, FieldOf entries node := by
  obtain ⟨node, hmem, hnode⟩ := exists_of_lastSome h
  have hof := hn node hmem
  cases hof with
  | uint32 | message | skipped => cases hnode
  | oneof h hin =>
    cases hnode
    exact ⟨_, h, hin⟩

/-! ### One field at a time -/

@[simp] lemma parse_nil (fields : List PbField) : parse fields [] = ⟨[], true⟩ := rfl

/-- A field that reads well is followed by the fields of the bytes after it. -/
lemma parse_cons {c d : List UInt8} {wireType tag : ℕ} {node : Node}
    (hkey : Reads keyReader c (some (wireType, tag)))
    (hbody : Reads (bodyReader parse (pbFieldIterFind fields tag) wireType tag) d (true, node))
    (r : List UInt8) : parse fields (c ++ (d ++ r)) =
      ⟨(c ++ d, node) :: (parse fields r).items, (parse fields r).whole⟩ := by
  have hlen : (c ++ (d ++ r)).length - r.length = (c ++ d).length := by
    simp only [List.length_append]
    omega
  rw [parse_eq, (Rule.good r (keyReader_ne_nil hkey) hkey hbody).eq]
  simp only [hlen]
  rw [← List.append_assoc, List.take_left]

lemma parse_last {c d : List UInt8} {wireType tag : ℕ} {ok : Bool} {node : Node}
    (hkey : Reads keyReader c (some (wireType, tag)))
    (hbody : Reads (bodyReader parse (pbFieldIterFind fields tag) wireType tag) d (ok, node)) :
    (parse fields (c ++ d)).nodes = [node] := by
  cases ok with
  | true =>
    have h := parse_cons hkey hbody []
    rw [List.append_nil] at h
    rw [h]
    rfl
  | false =>
    have h := (Rule.bad [] (keyReader_ne_nil hkey) hkey hbody).eq
    rw [List.append_nil] at h
    rw [parse_eq, h]
    rfl

/-- A key cut short, or none at all, enters nothing. -/
lemma parse_short_key {t u : List UInt8} {k : Option (ℕ × ℕ)}
    (hkey : Reads keyReader (t ++ u) k) (hu : u ≠ []) : (parse fields t).nodes = [] := by
  by_cases ht : t = []
  · subst ht
    rfl
  · rw [parse_eq, (Rule.badKey ht (keyReader_local.fails_short hkey hu)).eq]
    rfl

/-- A value cut short enters what an unreadable value does. -/
lemma parse_short_body {c t u : List UInt8} {wireType tag : ℕ} {v : Bool × Node}
    (hkey : Reads keyReader c (some (wireType, tag)))
    (hbody : Reads (bodyReader parse (pbFieldIterFind fields tag) wireType tag) (t ++ u) v)
    (hu : u ≠ []) :
    (parse fields (c ++ t)).nodes = brokenNode (pbFieldIterFind fields tag) tag := by
  have hfail := (bodyReader_local parse _ wireType tag).fails_short hbody hu
  rw [parse_eq, (Rule.broken (keyReader_ne_nil hkey) hkey hfail).eq]
  simp [Parse.nodes, Function.comp_def]

lemma lastStored_brokenNode {slot : ℕ} (hslot : slot ≠ 0) (field : Option PbField) (tag : ℕ) :
    lastStored slot (brokenNode field tag) = none := by
  rcases field with _ | ⟨_ | _ | _ | _ | _⟩ <;>
    simp [brokenNode, lastStored, lastSome, storedTo, hslot]

/-- The bytes of a list up to the first that fails a test, when the list begins with `c`. -/
lemma takeWhile_cut {α : Type} (p : α → Bool) (c : List α) :
    (c.all p = true ∧ ∀ y, (c ++ y).takeWhile p = c ++ y.takeWhile p) ∨
    (c.all p = false ∧ ∃ t u, c = t ++ u ∧ u ≠ [] ∧ ∀ y, (c ++ y).takeWhile p = t) := by
  induction c with
  | nil => exact Or.inl ⟨rfl, fun _ => rfl⟩
  | cons a c ih =>
    rcases ha : p a with _ | _
    · exact Or.inr ⟨by simp [ha], [], a :: c, rfl, by simp, fun y => by simp [ha]⟩
    rcases ih with ⟨hall, hy⟩ | ⟨hall, t, u, rfl, hu, hy⟩
    · exact Or.inl ⟨by simp [ha, hall], fun y => by simp [ha, hy]⟩
    · exact Or.inr ⟨by simp [ha, hall], a :: t, u, rfl, hu, fun y => by
        rw [List.cons_append, List.takeWhile_cons_of_pos ha, hy]⟩

/-- **Cutting a message.** Of well-formed bytes cut off at the first byte that fails a test, the
fields before the cut are left, for the cells of the message itself. -/
theorem lastStored_cut {slot : ℕ} (hslot : slot ≠ 0) (p : UInt8 → Bool) (w : List UInt8)
    (hwhole : (parse fields w).whole = true) :
    lastStored slot (parse fields (w.takeWhile p)).nodes =
      lastStored slot (((parse fields w).items.takeWhile fun item => item.1.all p).map
        Prod.snd) := by
  induction h : w.length using Nat.strongRecOn generalizing w with
  | _ n ih =>
    subst h
    have hrule := parseField_rule parse fields w
    have heq := parse_eq fields w
    generalize parseField parse fields w = st at hrule heq
    cases hrule with
    | done => rfl
    | badKey | broken | bad =>
      rw [heq] at hwhole
      cases hwhole
    | @zeroKey c r hc hkey =>
      rw [heq]
      rcases takeWhile_cut p c with ⟨-, hy⟩ | ⟨-, t, u, rfl, hu, hy⟩
      · rw [hy, parse_eq, (Rule.zeroKey _ hc hkey).eq]
        rfl
      · rw [hy, parse_short_key hkey hu]
        rfl
    | @good c d wireType tag node r hc hkey hbody =>
      have hparse := parse_cons hkey hbody
      rw [hparse] at hwhole ⊢
      have hlt : r.length < (c ++ (d ++ r)).length := by
        have := List.length_pos_iff.mpr hc
        simp only [List.length_append]
        omega
      rcases takeWhile_cut p c with ⟨hcall, hy⟩ | ⟨hcall, t, u, rfl, hu, hy⟩
      · rcases takeWhile_cut p d with ⟨hdall, hz⟩ | ⟨hdall, t, u, rfl, hu, hz⟩
        · -- the field lies before the cut
          have hitem : (c ++ d).all p = true := by simp [hcall, hdall]
          have ih := ih r.length hlt r hwhole rfl
          rw [hy, hz, hparse]
          simp only [Parse.nodes, lastStored, List.takeWhile_cons, hitem, if_true, List.map_cons,
            lastSome_cons] at ih ⊢
          rw [ih]
        · -- the cut is in its value
          have hitem : (c ++ (t ++ u)).all p = false := by
            rw [List.all_append, hdall, Bool.and_false]
          rw [hy, hz, parse_short_body hkey hbody hu, lastStored_brokenNode hslot]
          simp only [List.takeWhile_cons, hitem]
          rfl
      · -- the cut is in its key
        have hitem : (t ++ u ++ d).all p = false := by rw [List.all_append, hcall, Bool.false_and]
        rw [hy, parse_short_key hkey hu]
        simp only [List.takeWhile_cons, hitem]
        rfl

end RoombaBrain.PbFields
