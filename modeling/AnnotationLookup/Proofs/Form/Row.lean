import AnnotationLookup.Proofs.Form.Faithful
import Mathlib.Data.List.Zip

/-!
# Records, field by field

* `Row`: the fields of a record in order, each with the form of its values and its default;
* `Row.members`, `Row.decode`: how a row is written and read;
* `Json.fields?_of_perm`: the fields of an object are found in any order, among other members;
* `Form.IsRecord`: a record is a row, written as an object;
* **`Form.IsRecord.faithful`**: a record whose fields have faithful forms has a faithful form.
-/

namespace AnnotationLookup

/-- The fields of a record in order. -/
inductive Row : Type → Type 1
  | nil : Row Unit
  | cons {α β : Type} (name : String) (F : Form α) (default : Option α) (rest : Row β) : Row (α × β)

namespace Row

variable {α β τ : Type}

/-- The names of the fields. -/
def names {τ : Type} : Row τ → List String
  | nil => []
  | cons name _ _ rest => name :: rest.names

/-- The members of the object that is written. -/
def members {τ : Type} : Row τ → τ → List (String × Json)
  | nil, _ => []
  | cons name F _ rest, (x, t) => (name, F.toJson x) :: rest.members t

/-- Only a field with a default may be left out. -/
def readField (F : Form α) : Option α → Nat → Option Json → Option α
  | none => F.decode.required
  | some x => F.decode.withDefault x

/-- Reads the fields, and goes on with their values. -/
def decode {τ α : Type} : Row τ → Nat → List (Option Json) → (τ → Option α) → Option α
  | nil, _, [], k => k ()
  | nil, _, _ :: _, _ => none
  | cons _ _ _ _, _, [], _ => none
  | cons _ F default rest, depth, field :: fields, k =>
    (readField F default depth field).bind fun x => rest.decode depth fields fun t => k (x, t)

/-- The value of each field is valid. -/
def Valid {τ : Type} : Row τ → τ → Prop
  | nil, _ => True
  | cons _ F _ rest, (x, t) => F.Valid x ∧ rest.Valid t

/-- The value of each field is finite. -/
def Finite {τ : Type} : Row τ → τ → Prop
  | nil, _ => True
  | cons _ F _ rest, (x, t) => F.Finite x ∧ rest.Finite t

/-- Every field has a faithful form, and a default that could be read. -/
def FaithfulAt {τ : Type} (depth : Nat) : Row τ → Prop
  | nil => True
  | cons _ F default rest =>
    F.FaithfulAt depth ∧ (∀ x ∈ default, F.Valid x ∧ F.Finite x) ∧ rest.FaithfulAt depth

variable {depth : Nat}

theorem FaithfulAt.required {name : String} {F : Form α} {rest : Row β} (h : F.FaithfulAt depth)
    (hrest : rest.FaithfulAt depth) : (cons name F none rest).FaithfulAt depth :=
  ⟨h, fun _ hx => (nomatch hx), hrest⟩

theorem FaithfulAt.optional {name : String} {F : Form α} {default : α} {rest : Row β}
    (h : F.FaithfulAt depth) (hvalid : F.Valid default) (hfinite : F.Finite default)
    (hrest : rest.FaithfulAt depth) : (cons name F (some default) rest).FaithfulAt depth :=
  ⟨h, fun _ hx => Option.mem_some_iff.1 hx ▸ ⟨hvalid, hfinite⟩, hrest⟩

theorem names_members (row : Row τ) (t : τ) : (row.members t).map (·.1) = row.names := by
  induction row with
  | nil => rfl
  | cons name F default rest ih => simp [members, names, ih]

theorem decode_eq_bind (row : Row τ) (fields : List (Option Json)) (k : τ → Option α) :
    row.decode depth fields k = (row.decode depth fields some).bind k := by
  induction row generalizing α fields with
  | nil => cases fields <;> rfl
  | cons name F default rest ih =>
    cases fields with
    | nil => rfl
    | cons field fields =>
      simp only [decode]
      cases readField F default depth field with
      | none => rfl
      | some x =>
        simp only [Option.bind_some]
        rw [ih fields fun t => k (x, t), ih fields fun t => some (x, t), Option.bind_assoc]
        rfl

theorem writable_members {row : Row τ} (h : row.FaithfulAt depth) {t : τ} (ht : row.Valid t)
    (hdepth : ∀ m ∈ row.members t, m.2.depth ≤ depth) :
    ∀ m ∈ row.members t, m.2.Leaves Json.Writable := by
  induction row with
  | nil => exact fun m hm => nomatch hm
  | cons name F default rest ih =>
    rw [members, List.forall_mem_cons] at hdepth ⊢
    exact ⟨h.1.writable ht.1 hdepth.1, ih h.2.2 ht.2 hdepth.2⟩

theorem decode_cons_iff {name : String} {F : Form α} {default : Option α} {rest : Row β}
    {field : Option Json} {fields : List (Option Json)} {x : α} {t : β} :
    (cons name F default rest).decode depth (field :: fields) some = some (x, t) ↔
      readField F default depth field = some x ∧ rest.decode depth fields some = some t := by
  simp only [decode, Option.bind_eq_some_iff]
  constructor
  · rintro ⟨y, hy, ht⟩
    rw [decode_eq_bind] at ht
    obtain ⟨u, hu, ⟨⟩⟩ := Option.bind_eq_some_iff.1 ht
    exact ⟨hy, hu⟩
  · rintro ⟨hx, ht⟩
    exact ⟨x, hx, by rw [decode_eq_bind, ht, Option.bind_some]⟩

/-- What was written is read, with finite numbers and within the depth. -/
theorem decode_members_iff {row : Row τ} (h : row.FaithfulAt depth) {t u : τ} (ht : row.Valid t) :
    row.decode depth ((row.members t).map fun m => some m.2) some = some u ↔
      u = t ∧ row.Finite t ∧ ∀ m ∈ row.members t, m.2.depth ≤ depth := by
  induction row with
  | nil => simp [decode, members, Finite]
  | cons name F default rest ih =>
    have hread : readField F default depth (some (F.toJson t.1)) = F.decode depth (F.toJson t.1) := by
      cases default <;> rfl
    rw [members, List.map_cons, decode_cons_iff, hread, h.1.decode_iff ht.1, ih h.2.2 ht.2,
      List.forall_mem_cons, Prod.ext_iff, Finite]
    constructor
    · rintro ⟨⟨hx, hfinite, hle⟩, ht, hfinites, hles⟩
      exact ⟨⟨hx, ht⟩, ⟨hfinite, hfinites⟩, hle, hles⟩
    · rintro ⟨⟨hx, ht⟩, ⟨hfinite, hfinites⟩, hle, hles⟩
      exact ⟨⟨hx, hfinite, hle⟩, ht, hfinites, hles⟩

theorem holds_of_decode {row : Row τ} (h : row.FaithfulAt depth) {fields : List (Option Json)} {t : τ}
    (hfields : ∀ field ∈ fields, ∀ j ∈ field, j.Leaves Json.Readable)
    (ht : row.decode depth fields some = some t) : row.Valid t ∧ row.Finite t := by
  induction row generalizing fields with
  | nil => exact ⟨trivial, trivial⟩
  | cons name F default rest ih =>
    cases fields with
    | nil => cases ht
    | cons field fields =>
      obtain ⟨x, t⟩ := t
      rw [List.forall_mem_cons] at hfields
      obtain ⟨hx, ht⟩ := decode_cons_iff.1 ht
      obtain ⟨hvalid, hfinite⟩ := ih h.2.2 hfields.2 ht
      have hheld : F.Valid x ∧ F.Finite x := by
        cases field with
        | some j =>
          refine h.1.holds (hfields.1 j rfl) ?_
          cases default <;> exact hx
        | none =>
          cases default with
          | none => cases hx
          | some y =>
            cases hx
            exact h.2.1 x rfl
      exact ⟨⟨hheld.1, hvalid⟩, hheld.2, hfinite⟩

end Row

/-! ## Fields of an object -/

section Fields

variable {p : Json → Prop} {names : List String} {fields : List (Option Json)} {least : Nat}

theorem leaves_of_uniqueMember? {members : List (String × Json)} {name : String} {field : Option Json}
    (h : ∀ m ∈ members, m.2.Leaves p) (hfield : Json.uniqueMember? members name = some field) :
    ∀ j ∈ field, j.Leaves p := by
  unfold Json.uniqueMember? at hfield
  split at hfield
  · cases hfield
    exact fun j hj => nomatch hj
  · next _ j hmembers =>
    cases hfield
    have hmem : (_, j) ∈ members := (List.mem_filter.1 (hmembers ▸ List.mem_singleton_self _)).1
    rintro _ ⟨⟩
    exact h _ hmem
  · cases hfield

theorem leaves_of_fields? {j : Json} {fields : List (Option Json)} (h : j.Leaves p)
    (hfields : j.fields? names least = some fields) : ∀ field ∈ fields, ∀ i ∈ field, i.Leaves p := by
  cases j with
  | obj members =>
    rw [Json.leaves_obj] at h
    intro field hfield
    obtain ⟨name, -, hname⟩ := Form.mem_of_mapM hfields field hfield
    exact leaves_of_uniqueMember? h hname
  | arr items =>
    rw [Json.leaves_arr] at h
    simp only [Json.fields?] at hfields
    split at hfields
    · cases hfields
      intro field hfield i hi
      rcases List.mem_append.1 hfield with hfield | hfield
      · obtain ⟨item, hitem, rfl⟩ := List.mem_map.1 hfield
        cases hi
        exact h i hitem
      · rw [List.eq_of_mem_replicate hfield] at hi
        exact nomatch hi
    · cases hfields
  | _ => cases hfields

theorem length_fields? {j : Json} {fields : List (Option Json)}
    (h : j.fields? names least = some fields) : fields.length = names.length := by
  cases j with
  | obj members => exact Form.length_of_mapM h
  | arr items =>
    simp only [Json.fields?] at h
    split at h
    · next hlength =>
      cases h
      rw [List.length_append, List.length_map, List.length_replicate]
      omega
    · cases h
  | _ => cases h

theorem bind_fields?_congr {α : Type} {k k' : List (Option Json) → Option α} {j : Json}
    (h : ∀ fields, fields.length = names.length → k fields = k' fields) :
    (j.fields? names least).bind k = (j.fields? names least).bind k' := by
  cases hfields : j.fields? names least with
  | none => rfl
  | some fields => exact h fields (length_fields? hfields)

namespace Json

/-- The members of the fields that are there. -/
def membersOf (names : List String) (fields : List (Option Json)) : List (String × Json) :=
  (names.zip fields).filterMap fun p => p.2.map (p.1, ·)

theorem membersOf_map (members : List (String × Json)) :
    membersOf (members.map (·.1)) (members.map fun m => some m.2) = members := by
  rw [membersOf, List.zip_map', List.filterMap_map]
  exact List.filterMap_some

theorem filter_membersOf (hnodup : names.Nodup) {name : String} {field : Option Json}
    (h : (name, field) ∈ names.zip fields) :
    (membersOf names fields).filter (·.1 == name) = field.toList.map (name, ·) := by
  induction names generalizing fields with
  | nil => simp at h
  | cons n names ih =>
    cases fields with
    | nil => simp at h
    | cons f fields =>
      obtain ⟨hn, hnodup⟩ := List.nodup_cons.1 hnodup
      have hcons : membersOf (n :: names) (f :: fields) =
          f.toList.map (n, ·) ++ membersOf names fields := by
        cases f <;> rfl
      rw [hcons, List.filter_append]
      rcases List.mem_cons.1 h with heq | h
      · obtain ⟨rfl, rfl⟩ := Prod.mk.inj heq
        have hnone : (membersOf names fields).filter (·.1 == name) = [] := by
          rw [List.filter_eq_nil_iff]
          intro m hm heq
          obtain ⟨p, hp, hm⟩ := List.mem_filterMap.1 hm
          obtain ⟨j, -, rfl⟩ := Option.map_eq_some_iff.1 hm
          exact hn (eq_of_beq heq ▸ (List.of_mem_zip hp).1)
        rw [hnone, List.append_nil]
        cases field <;> simp
      · have hne : n ≠ name := fun heq => hn (heq ▸ (List.of_mem_zip h).1)
        rw [ih hnodup h]
        cases f <;> simp [hne]

theorem uniqueMember?_of_perm (hnodup : names.Nodup) {members others : List (String × Json)}
    (hperm : members.Perm (membersOf names fields ++ others)) (hothers : ∀ m ∈ others, m.1 ∉ names)
    {name : String} {field : Option Json} (h : (name, field) ∈ names.zip fields) :
    uniqueMember? members name = some field := by
  have hnone : others.filter (·.1 == name) = [] := by
    rw [List.filter_eq_nil_iff]
    intro m hm heq
    exact hothers m hm (eq_of_beq heq ▸ (List.of_mem_zip h).1)
  have hfilter := hperm.filter (·.1 == name)
  rw [List.filter_append, hnone, List.append_nil, filter_membersOf hnodup h] at hfilter
  unfold uniqueMember?
  cases field with
  | none => rw [List.perm_nil.1 hfilter]
  | some j => rw [List.perm_singleton.1 hfilter]

/-- An object has such fields, in any order and among members of other names. -/
theorem fields?_of_perm (hnodup : names.Nodup) (hlength : fields.length = names.length)
    {members others : List (String × Json)} (hperm : members.Perm (membersOf names fields ++ others))
    (hothers : ∀ m ∈ others, m.1 ∉ names) : (obj members).fields? names least = some fields := by
  refine Form.mapM_eq_some_iff.2 (List.forall₂_iff_zip.2 ⟨hlength.symm, fun {name field} hmem => ?_⟩)
  exact uniqueMember?_of_perm hnodup hperm hothers hmem

end Json

theorem fields?_obj {members : List (String × Json)} (hnames : members.map (·.1) = names)
    (hnodup : names.Nodup) :
    (Json.obj members).fields? names least = some (members.map fun m => some m.2) := by
  subst hnames
  have hperm : members.Perm
      (Json.membersOf (members.map (·.1)) (members.map fun m => some m.2) ++ []) := by
    rw [Json.membersOf_map, List.append_nil]
  exact Json.fields?_of_perm hnodup (by simp) hperm fun m hm => nomatch hm

end Fields

/-! ## Records -/

namespace Form

variable {α τ : Type}

/-- A record of these fields. -/
def ofRow (row : Row τ) (view : α → τ) (toJson : α → Json) (decode : Decoder α) : Form α where
  toJson := toJson
  decode := decode
  Valid x := row.Valid (view x)
  Finite x := row.Finite (view x)

/-- A record is written as an object of its fields, and made of the fields that are read. -/
structure IsRecord (row : Row τ) (view : α → τ) (make : τ → α) (least : Nat) (toJson : α → Json)
    (decode : Decoder α) : Prop where
  nodup : row.names.Nodup
  make_view (x : α) : make (view x) = x
  view_make (t : τ) : view (make t) = t
  toJson_eq (x : α) : toJson x = .obj (row.members (view x))
  decode_zero (j : Json) : decode 0 j = none
  decode_succ (depth : Nat) (j : Json) :
    decode (depth + 1) j = (j.fields? row.names least).bind fun fields =>
      row.decode depth fields fun t => some (make t)

namespace IsRecord

variable {row : Row τ} {view : α → τ} {make : τ → α} {least depth : Nat} {toJson : α → Json}
  {decode : Decoder α}

theorem faithfulAt_zero (h : IsRecord row view make least toJson decode) :
    (ofRow row view toJson decode).FaithfulAt 0 :=
  Form.faithfulAt_zero h.decode_zero fun x => by
    simp [ofRow, h.toJson_eq, Json.depth]

theorem decode_eq_some_iff (h : IsRecord row view make least toJson decode) {j : Json} {x : α} :
    decode (depth + 1) j = some x ↔
      ∃ fields, j.fields? row.names least = some fields ∧
        row.decode depth fields some = some (view x) := by
  rw [h.decode_succ, Option.bind_eq_some_iff]
  refine exists_congr fun fields => and_congr_right fun _ => ?_
  rw [Row.decode_eq_bind, Option.bind_eq_some_iff]
  constructor
  · rintro ⟨t, ht, ⟨⟩⟩
    rw [ht, h.view_make]
  · intro ht
    exact ⟨view x, ht, congrArg some (h.make_view x)⟩

/-- **A record whose fields have faithful forms has a faithful form.** -/
theorem faithfulAt_succ (h : IsRecord row view make least toJson decode) (hrow : row.FaithfulAt depth) :
    (ofRow row view toJson decode).FaithfulAt (depth + 1) where
  writable {x} hx hdepth := by
    simp only [ofRow, h.toJson_eq, Json.leaves_obj] at hdepth ⊢
    exact Row.writable_members hrow hx (depth_obj_le.1 hdepth)
  decode_iff {x y} hx := by
    have hview : view y = view x ↔ y = x :=
      ⟨fun heq => by rw [← h.make_view y, heq, h.make_view], congrArg view⟩
    have hfields : (toJson x).fields? row.names least =
        some ((row.members (view x)).map fun m => some m.2) := by
      rw [h.toJson_eq]
      exact fields?_obj (row.names_members _) h.nodup
    have hdecode : decode (depth + 1) (toJson x) = some y ↔
        row.decode depth ((row.members (view x)).map fun m => some m.2) some = some (view y) := by
      simp [h.decode_eq_some_iff, hfields]
    have hiff : decode (depth + 1) (toJson x) = some y ↔
        y = x ∧ row.Finite (view x) ∧ (toJson x).depth ≤ depth + 1 := by
      rw [hdecode, Row.decode_members_iff hrow hx, hview, h.toJson_eq, depth_obj_le]
    exact hiff
  holds {j x} hj hx := by
    obtain ⟨fields, hfields, ht⟩ := h.decode_eq_some_iff.1 hx
    exact Row.holds_of_decode hrow (leaves_of_fields? hj hfields) ht

theorem faithful (h : IsRecord row view make least toJson decode)
    (hrow : ∀ depth, row.FaithfulAt depth) : (ofRow row view toJson decode).Faithful
  | 0 => h.faithfulAt_zero
  | depth + 1 => h.faithfulAt_succ (hrow depth)

end IsRecord

end Form

end AnnotationLookup
