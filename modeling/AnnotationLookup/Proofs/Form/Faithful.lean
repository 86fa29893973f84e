import AnnotationLookup.Proofs.Form.Restore
import AnnotationLookup.Proofs.Json.Text
import Mathlib.Data.List.Forall2

/-!
# Faithful forms

* `Form`: how the values of a type are written and read, with what holds of the values that there
  are, and of those all numbers of which are finite;
* `Form.FaithfulAt`, `Form.Faithful`: what is written is read again, if its numbers are finite and
  as many containers may be opened as it has, and what is read could be written;
* `Form.faithful_of_leaf`: the laws of a form without containers, and the forms of that kind;
* **`Form.FaithfulAt.list`**, **`Form.FaithfulAt.entries`**, **`Form.FaithfulAt.nullable`**: lists,
  tables and optional values of a faithful form.
-/

namespace AnnotationLookup

/-- How the values of a type are written and read. -/
structure Form (α : Type) where
  toJson : α → Json
  decode : Decoder α
  /-- What holds of every value of the type. -/
  Valid : α → Prop := fun _ => True
  /-- No number in the value is infinite or none at all. -/
  Finite : α → Prop := fun _ => True

namespace Form

variable {α β : Type} {F : Form α} {depth : Nat}

/-- The laws of a form, where so many containers may still be opened. -/
structure FaithfulAt (F : Form α) (depth : Nat) : Prop where
  writable {x : α} : F.Valid x → (F.toJson x).depth ≤ depth → (F.toJson x).Leaves Json.Writable
  decode_iff {x y : α} : F.Valid x →
    (F.decode depth (F.toJson x) = some y ↔ y = x ∧ F.Finite x ∧ (F.toJson x).depth ≤ depth)
  holds {j : Json} {x : α} : j.Leaves Json.Readable → F.decode depth j = some x →
    F.Valid x ∧ F.Finite x

/-- The laws of a form, however many containers may be opened. -/
def Faithful (F : Form α) : Prop := ∀ depth, F.FaithfulAt depth

theorem faithfulAt_zero (hdecode : ∀ j, F.decode 0 j = none) (hdepth : ∀ x, 0 < (F.toJson x).depth) :
    F.FaithfulAt 0 where
  writable _ h := absurd h (Nat.not_le.2 (hdepth _))
  decode_iff {x y} _ := by
    have hnot : ¬ (F.toJson x).depth ≤ 0 := Nat.not_le.2 (hdepth x)
    simp [hdecode, hnot]
  holds _ h := by simp [hdecode] at h

/-! ## Leaves -/

section Leaves

/-- The laws of a form without containers and without numbers that may be infinite. -/
theorem faithful_of_leaf (hwritable : ∀ x, F.Valid x → (F.toJson x).Leaves Json.Writable)
    (hdepth : ∀ x, (F.toJson x).depth = 0) (hfinite : ∀ x, F.Finite x)
    (hdecode : ∀ depth x, F.Valid x → F.decode depth (F.toJson x) = some x)
    (hvalid : ∀ depth j x, F.decode depth j = some x → F.Valid x) : F.Faithful := fun depth => {
  writable := fun hx _ => hwritable _ hx
  decode_iff := fun {x y} hx => by
    simp [hdecode depth x hx, hdepth, hfinite, eq_comm]
  holds := fun _ h => ⟨hvalid _ _ _ h, hfinite _⟩ }

/-- The form of texts. -/
def text : Form String where
  toJson := .str
  decode := Decoder.text

theorem faithful_text : text.Faithful :=
  faithful_of_leaf (fun _ _ => trivial) (fun _ => rfl) (fun _ => trivial) (fun _ _ _ => rfl)
    fun _ _ _ _ => trivial

/-- The form of type names. -/
def typeName : Form TypeName where
  toJson := TypeName.toJson
  decode := TypeName.decode

theorem faithful_typeName : typeName.Faithful :=
  faithful_of_leaf (fun _ _ => trivial) (fun _ => rfl) (fun _ => trivial) (fun _ _ _ => rfl)
    fun _ _ _ _ => trivial

/-- The form of the kinds of classes. -/
def kind : Form ClassKind where
  toJson := ClassKind.toJson
  decode := ClassKind.decode

theorem faithful_kind : kind.Faithful := by
  refine faithful_of_leaf (fun k _ => ?_) (fun k => ?_) (fun _ => trivial) (fun _ k _ => ?_)
    fun _ _ _ _ => trivial
  · cases k <;> exact trivial
  · cases k <;> rfl
  · cases k <;> rfl

/-- The form of origins. -/
def origin : Form Origin where
  toJson := Origin.toJson
  decode := Origin.decode

theorem faithful_origin : origin.Faithful := by
  refine faithful_of_leaf (fun o _ => ?_) (fun o => ?_) (fun _ => trivial) (fun _ o _ => ?_)
    fun _ _ _ _ => trivial
  · cases o <;> exact trivial
  · cases o <;> rfl
  · cases o <;> rfl

theorem natBelow_iff {bound depth : Nat} {n m : Nat} :
    Decoder.natBelow bound depth (.int n) = some m ↔ m = n ∧ n < bound := by
  have hread : Decoder.natBelow bound depth (.int n) = (some n).filter (· < bound) := rfl
  rw [hread, Option.filter_eq_some_iff, Option.some.injEq, decide_eq_true_eq, eq_comm]
  constructor
  · rintro ⟨rfl, h⟩
    exact ⟨rfl, h⟩
  · rintro ⟨rfl, h⟩
    exact ⟨rfl, h⟩

/-- The form of factories. -/
def factory : Form Factory where
  toJson := Factory.toJson
  decode := Factory.decode

theorem faithful_factory : factory.Faithful := by
  refine faithful_of_leaf (fun f _ => ?_) (fun f => rfl) (fun _ => trivial) (fun depth f _ => ?_)
    fun _ _ _ _ => trivial
  · exact Json.intFits_ofNat (Nat.lt_trans f.number.toNat_lt (by decide))
  · have hread : Decoder.natBelow UInt32.size depth (.int f.number.toNat) = some f.number.toNat :=
      natBelow_iff.2 ⟨rfl, f.number.toNat_lt⟩
    have hnumber : Decoder.uint32 depth (.int f.number.toNat) = some f.number := by
      rw [Decoder.uint32, hread, Option.map_some, UInt32.ofNat_toNat]
    simp only [factory, Factory.decode, Factory.toJson, hnumber, Option.map_some]

/-- An index or a position, which has 64 bits. -/
def index : Form Nat where
  toJson n := .int n
  decode := Decoder.index
  Valid n := n < UInt64.size

theorem faithful_index : index.Faithful := by
  refine faithful_of_leaf (fun n hn => Json.intFits_ofNat hn) (fun n => rfl) (fun _ => trivial)
    (fun depth n hn => ?_) fun _ j n h => ?_
  · have hread : Decoder.natBelow UInt64.size depth (.int n) = some n := natBelow_iff.2 ⟨rfl, hn⟩
    exact hread
  · have hlt : n < UInt64.size := of_decide_eq_true (Option.filter_eq_some_iff.1 h).2
    exact hlt

end Leaves

/-! ## Parts -/

theorem mapM_map_iff {γ δ : Type} {d : γ → Option δ} {f : δ → γ} {ok : δ → Prop} {xs : List δ}
    (h : ∀ x ∈ xs, ∀ y, d (f x) = some y ↔ y = x ∧ ok x) (ys : List δ) :
    (xs.map f).mapM d = some ys ↔ ys = xs ∧ ∀ x ∈ xs, ok x := by
  induction xs generalizing ys with
  | nil => simp [eq_comm]
  | cons x xs ih =>
    have hxs := ih fun y hy => h y (List.mem_cons_of_mem _ hy)
    simp only [List.map_cons, List.mapM_cons, Option.bind_eq_bind, Option.bind_eq_some_iff,
      h x List.mem_cons_self, hxs, List.forall_mem_cons]
    constructor
    · rintro ⟨_, ⟨rfl, hx⟩, _, ⟨rfl, hok⟩, ⟨⟩⟩
      exact ⟨rfl, hx, hok⟩
    · rintro ⟨rfl, hx, hok⟩
      exact ⟨x, ⟨rfl, hx⟩, xs, ⟨rfl, hok⟩, rfl⟩

theorem mapM_eq_some_iff {γ δ : Type} {d : γ → Option δ} {js : List γ} {ys : List δ} :
    js.mapM d = some ys ↔ List.Forall₂ (fun j y => d j = some y) js ys := by
  induction js generalizing ys with
  | nil => simp [eq_comm]
  | cons j js ih =>
    simp only [List.mapM_cons, Option.bind_eq_bind, Option.bind_eq_some_iff, ih,
      List.forall₂_cons_left_iff]
    constructor
    · rintro ⟨x, hx, xs, hxs, ⟨⟩⟩
      exact ⟨x, xs, hx, hxs, rfl⟩
    · rintro ⟨x, xs, hx, hxs, rfl⟩
      exact ⟨x, hx, xs, hxs, rfl⟩

theorem mem_of_mapM {γ δ : Type} {d : γ → Option δ} {js : List γ} {ys : List δ}
    (h : js.mapM d = some ys) : ∀ y ∈ ys, ∃ j ∈ js, d j = some y := by
  obtain ⟨hlength, hread⟩ := List.forall₂_iff_zip.1 (mapM_eq_some_iff.1 h)
  intro y hy
  rw [← List.map_snd_zip (Nat.le_of_eq hlength.symm)] at hy
  obtain ⟨⟨j, y⟩, hmem, rfl⟩ := List.mem_map.1 hy
  exact ⟨j, (List.of_mem_zip hmem).1, hread hmem⟩

theorem mem_zip_of_mapM {γ δ : Type} {d : γ → Option δ} {js : List γ} {ys : List δ}
    (h : js.mapM d = some ys) {i : γ} (hi : i ∈ js) : ∃ y, d i = some y ∧ (i, y) ∈ js.zip ys := by
  obtain ⟨hlength, hread⟩ := List.forall₂_iff_zip.1 (mapM_eq_some_iff.1 h)
  rw [← List.map_fst_zip (Nat.le_of_eq hlength)] at hi
  obtain ⟨⟨i, y⟩, hmem, rfl⟩ := List.mem_map.1 hi
  exact ⟨y, hread hmem, hmem⟩

theorem mapM_eq_none {γ δ : Type} {d : γ → Option δ} {js : List γ} {i : γ} (hi : i ∈ js)
    (h : d i = none) : js.mapM d = none := by
  cases hys : js.mapM d with
  | none => rfl
  | some ys =>
    obtain ⟨y, hy, -⟩ := mem_zip_of_mapM hys hi
    rw [h] at hy
    cases hy

theorem length_of_mapM {γ δ : Type} {d : γ → Option δ} {js : List γ} {ys : List δ}
    (h : js.mapM d = some ys) : ys.length = js.length :=
  (mapM_eq_some_iff.1 h).length_eq.symm

theorem forall₂_of_mem {γ δ : Type} {R S : δ → γ → Prop} {xs : List δ} {js : List γ}
    (h : List.Forall₂ R xs js) (himp : ∀ x ∈ xs, ∀ j ∈ js, R x j → S x j) : List.Forall₂ S xs js := by
  induction h with
  | nil => exact .nil
  | cons hxj _ ih =>
    refine .cons (himp _ List.mem_cons_self _ List.mem_cons_self hxj) (ih fun x hx j hj => ?_)
    exact himp x (List.mem_cons_of_mem _ hx) j (List.mem_cons_of_mem _ hj)

theorem mapM_of_forall₂ {γ δ : Type} {R : δ → γ → Prop} {d : γ → Option δ} {xs : List δ} {js : List γ}
    (h : List.Forall₂ R xs js) (hd : ∀ x ∈ xs, ∀ j, R x j → d j = some x) : js.mapM d = some xs :=
  mapM_eq_some_iff.2 (forall₂_of_mem h fun x hx j _ => hd x hx j).flip

/-- The form of lists, as arrays. -/
def list (F : Form α) : Form (List α) where
  toJson xs := .arr (xs.map F.toJson)
  decode := Decoder.list F.decode
  Valid xs := ∀ x ∈ xs, F.Valid x
  Finite xs := ∀ x ∈ xs, F.Finite x

theorem depth_arr_le {items : List Json} :
    (Json.arr items).depth ≤ depth + 1 ↔ ∀ j ∈ items, j.depth ≤ depth := by
  have hitems : Json.depthOfItems items ≤ depth ↔ ∀ j ∈ items, j.depth ≤ depth := by
    induction items with
    | nil => simp [Json.depthOfItems]
    | cons item items ih => rw [Json.depthOfItems, Nat.max_le, ih, List.forall_mem_cons]
  rw [Json.depth, Nat.add_le_add_iff_right, hitems]

theorem depth_obj_le {members : List (String × Json)} :
    (Json.obj members).depth ≤ depth + 1 ↔ ∀ m ∈ members, m.2.depth ≤ depth := by
  have hmembers : Json.depthOfMembers members ≤ depth ↔ ∀ m ∈ members, m.2.depth ≤ depth := by
    induction members with
    | nil => simp [Json.depthOfMembers]
    | cons m members ih => rw [Json.depthOfMembers, Nat.max_le, ih, List.forall_mem_cons]
  rw [Json.depth, Nat.add_le_add_iff_right, hmembers]

theorem FaithfulAt.list (h : F.FaithfulAt depth) : F.list.FaithfulAt (depth + 1) where
  writable {xs} hxs hdepth := by
    rw [Form.list, depth_arr_le, List.forall_mem_map] at hdepth
    rw [Form.list, Json.leaves_arr, List.forall_mem_map]
    exact fun x hx => h.writable (hxs x hx) (hdepth x hx)
  decode_iff {xs ys} hxs := by
    have hiff := mapM_map_iff (fun x hx y => h.decode_iff (y := y) (hxs x hx)) ys
    rw [Form.list, depth_arr_le, List.forall_mem_map]
    simp only [Decoder.list, hiff, forall_and]
  holds {j ys} hj hys := by
    cases j with
    | arr items =>
      rw [Json.leaves_arr] at hj
      have hheld : ∀ y ∈ ys, F.Valid y ∧ F.Finite y := fun y hy => by
        obtain ⟨item, hitem, hread⟩ := mem_of_mapM hys y hy
        exact h.holds (hj item hitem) hread
      exact ⟨fun y hy => (hheld y hy).1, fun y hy => (hheld y hy).2⟩
    | _ => cases hys

theorem Faithful.list (h : F.Faithful) : F.list.Faithful
  | 0 => faithfulAt_zero (fun _ => rfl) fun _ => Nat.succ_pos _
  | depth + 1 => (h depth).list

/-- Entries by name, in ascending order of names. -/
def entries (F : Form α) : Form (Entries α) where
  toJson es := .obj (es.map fun p => (p.1, F.toJson p.2))
  decode := Decoder.entries F.decode
  Valid es := es.Sorted ∧ ∀ p ∈ es, F.Valid p.2
  Finite es := ∀ p ∈ es, F.Finite p.2

theorem FaithfulAt.entries (h : F.FaithfulAt depth) : F.entries.FaithfulAt (depth + 1) where
  writable {es} hes hdepth := by
    rw [Form.entries, depth_obj_le, List.forall_mem_map] at hdepth
    rw [Form.entries, Json.leaves_obj, List.forall_mem_map]
    exact fun p hp => h.writable (hes.2 p hp) (hdepth p hp)
  decode_iff {es fs} hes := by
    have hentry (p : String × α) (hp : p ∈ es) (q : String × α) :
        (F.decode depth (F.toJson p.2)).map (p.1, ·) = some q ↔
          q = p ∧ F.Finite p.2 ∧ (F.toJson p.2).depth ≤ depth := by
      rw [Option.map_eq_some_iff]
      constructor
      · rintro ⟨a, ha, rfl⟩
        obtain ⟨rfl, hok⟩ := (h.decode_iff (hes.2 p hp)).1 ha
        exact ⟨rfl, hok⟩
      · rintro ⟨rfl, hok⟩
        exact ⟨q.2, (h.decode_iff (hes.2 q hp)).2 ⟨rfl, hok⟩, rfl⟩
    have hiff := mapM_map_iff (f := fun p : String × α => (p.1, F.toJson p.2))
      (d := fun m : String × Json => (F.decode depth m.2).map (m.1, ·)) hentry
    rw [Form.entries, depth_obj_le, List.forall_mem_map]
    simp only [Decoder.entries, Option.map_eq_some_iff, hiff, forall_and]
    constructor
    · rintro ⟨_, ⟨rfl, hok⟩, rfl⟩
      exact ⟨Entries.ofList_of_sorted hes.1, hok⟩
    · rintro ⟨rfl, hok⟩
      exact ⟨fs, ⟨rfl, hok⟩, Entries.ofList_of_sorted hes.1⟩
  holds {j es} hj hes := by
    cases j with
    | obj members =>
      rw [Json.leaves_obj] at hj
      obtain ⟨pairs, hpairs, rfl⟩ := Option.map_eq_some_iff.1 hes
      have hheld : ∀ p ∈ Entries.ofList pairs, F.Valid p.2 ∧ F.Finite p.2 := fun p hp => by
        obtain ⟨m, hm, hread⟩ := mem_of_mapM hpairs p (Entries.mem_ofList hp)
        obtain ⟨a, ha, rfl⟩ := Option.map_eq_some_iff.1 hread
        exact h.holds (hj m hm) ha
      exact ⟨⟨Entries.sorted_ofList pairs, fun p hp => (hheld p hp).1⟩, fun p hp => (hheld p hp).2⟩
    | _ => cases hes

/-- A value, or nothing. -/
def nullable (F : Form α) : Form (Option α) where
  toJson := fun
    | none => .null
    | some x => F.toJson x
  decode := Decoder.nullable F.decode
  Valid o := ∀ x ∈ o, F.Valid x
  Finite o := ∀ x ∈ o, F.Finite x

theorem FaithfulAt.nullable (h : F.FaithfulAt depth) (hnull : ∀ x, F.toJson x ≠ .null) :
    F.nullable.FaithfulAt depth where
  writable {o} ho hdepth := by
    cases o with
    | none => exact trivial
    | some x => exact h.writable (ho x rfl) hdepth
  decode_iff {o y} ho := by
    cases o with
    | none => simp [Form.nullable, Decoder.nullable, Json.depth, eq_comm]
    | some x =>
      simp only [Form.nullable, Decoder.nullable_of_ne_null (hnull x), Option.map_eq_some_iff,
        h.decode_iff (ho x rfl), Option.mem_some_iff, forall_eq']
      constructor
      · rintro ⟨_, ⟨rfl, hok⟩, rfl⟩
        exact ⟨rfl, hok⟩
      · rintro ⟨rfl, hok⟩
        exact ⟨x, ⟨rfl, hok⟩, rfl⟩
  holds {j o} hj ho := by
    by_cases hj' : j = .null
    · subst hj'
      cases ho
      exact ⟨fun x hx => (nomatch hx), fun x hx => (nomatch hx)⟩
    · simp only [Form.nullable, Decoder.nullable_of_ne_null hj'] at ho
      obtain ⟨y, hy, rfl⟩ := Option.map_eq_some_iff.1 ho
      obtain ⟨hvalid, hfinite⟩ := h.holds hj hy
      exact ⟨fun x hx => Option.mem_some_iff.1 hx ▸ hvalid,
        fun x hx => Option.mem_some_iff.1 hx ▸ hfinite⟩

end Form

end AnnotationLookup
