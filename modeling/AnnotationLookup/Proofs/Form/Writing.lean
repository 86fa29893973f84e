import AnnotationLookup.Proofs.Form.Row

/-!
# Ways of writing

A value may be written in other ways than its form writes it, and is read all the same.

* `Writing`: in which documents a value may be written; `Writing.exact`, `Writing.list`,
  `Writing.entries`, `Writing.nullable`: the ways for leaves and collections;
* `Json.Shows`: an object of fields in any order, among others of no meaning, or an array of them;
* `Row.Written`, `Row.writing`: the ways for records, which may leave out fields at their defaults;
* `Form.LenientAt`: what is written in such ways is read, and as deep as need be;
* `Form.LenientAt.list`, `Form.LenientAt.entries`, `Form.LenientAt.nullable`;
* **`Form.IsRecord.lenientAt_succ`**: a record of fields with lenient forms.
-/

namespace AnnotationLookup

variable {α β τ : Type}

/-! ## Collections -/

/-- In which documents a value may be written, where so many containers may be opened on the way to its
parts. -/
abbrev Writing (α : Type) := Nat → α → Json → Prop

namespace Writing

/-- As the form writes it. -/
def exact (F : Form α) : Writing α := fun _ x j => j = F.toJson x

/-- Items are written in order. -/
def list (W : Writing α) : Writing (List α)
  | depth + 1, xs, .arr items => List.Forall₂ (W depth) xs items
  | _, _, _ => False

/-- Entries are written in any order. -/
def entries (W : Writing α) : Writing (Entries α)
  | depth + 1, es, .obj members => ∃ ps : List (String × α), ps.Perm es ∧
    List.Forall₂ (fun p (m : String × Json) => m.1 = p.1 ∧ W depth p.2 m.2) ps members
  | _, _, _ => False

/-- Nothing is written as `null`. -/
def nullable (W : Writing α) : Writing (Option α)
  | _, none, j => j = .null
  | depth, some x, j => W depth x j

end Writing

namespace Form

variable {F : Form α} {W : Writing α} {depth : Nat}

/-- The laws of a writing for a form, where so many containers may be opened. -/
structure LenientAt (F : Form α) (W : Writing α) (depth : Nat) : Prop where
  /-- What is written is read. -/
  reads {x : α} {j : Json} : F.Valid x → F.Finite x → W depth x j → F.decode depth j = some x
  /-- A value may be written as its form writes it. -/
  self {x : α} : (F.toJson x).depth ≤ depth → W depth x (F.toJson x)
  /-- No more containers are opened than the document has, or than that of the form. -/
  fits {x : α} {j : Json} {n : Nat} : W n x j → j.depth ≤ depth ∨ (F.toJson x).depth ≤ depth →
    W depth x j

/-- The laws of a writing, however many containers may be opened. -/
def Lenient (F : Form α) (W : Writing α) : Prop := ∀ depth, F.LenientAt W depth

theorem lenientAt_zero (hzero : ∀ x j, ¬W 0 x j) (hdepth : ∀ x, 0 < (F.toJson x).depth)
    (hopen : ∀ n x j, W n x j → 0 < j.depth) : F.LenientAt W 0 where
  reads _ _ h := absurd h (hzero _ _)
  self h := absurd h (Nat.not_le.2 (hdepth _))
  fits h hle := hle.elim (fun hle => absurd hle (Nat.not_le.2 (hopen _ _ _ h)))
    fun hle => absurd hle (Nat.not_le.2 (hdepth _))

theorem Faithful.lenient (h : F.Faithful) (hdepth : ∀ x, (F.toJson x).depth = 0) :
    F.Lenient (.exact F) := fun depth => {
  reads := fun {x j} hvalid hfinite hj => by
    have hle : (F.toJson x).depth ≤ depth := by
      rw [hdepth]
      exact Nat.zero_le depth
    rw [show j = F.toJson x from hj]
    exact ((h depth).decode_iff hvalid).2 ⟨rfl, hfinite, hle⟩
  self := fun _ => rfl
  fits := fun h _ => h }

theorem LenientAt.list (h : F.LenientAt W depth) : F.list.LenientAt W.list (depth + 1) where
  reads {xs j} hvalid hfinite hj := by
    cases j with
    | arr items => exact mapM_of_forall₂ hj fun x hx j => h.reads (hvalid x hx) (hfinite x hx)
    | _ => cases hj
  self {xs} hdepth := by
    rw [Form.list, depth_arr_le, List.forall_mem_map] at hdepth
    exact List.forall₂_map_right_iff.2 (List.forall₂_same.2 fun x hx => h.self (hdepth x hx))
  fits {xs j n} hj hle := by
    cases n with
    | zero => exact hj.elim
    | succ n =>
      cases j with
      | arr items =>
        refine forall₂_of_mem hj fun x hx j hj hxj => h.fits hxj (hle.imp (fun hle => ?_) fun hle => ?_)
        · exact depth_arr_le.1 hle j hj
        · rw [Form.list, depth_arr_le, List.forall_mem_map] at hle
          exact hle x hx
      | _ => exact hj.elim

theorem Lenient.list (h : F.Lenient W) : F.list.Lenient W.list
  | 0 => lenientAt_zero (fun _ _ hj => hj) (fun _ => Nat.succ_pos _) fun
    | _ + 1, _, .arr _, _ => Nat.succ_pos _
  | depth + 1 => (h depth).list

end Form

namespace Entries

theorem insert_perm {es : Entries α} {name : String} (h : name ∉ es.names) (a : α) :
    (insert name a es).Perm ((name, a) :: es) := by
  induction es with
  | nil => rfl
  | cons p es ih =>
    obtain ⟨k, b⟩ := p
    obtain ⟨hk, hes⟩ : name ≠ k ∧ name ∉ Entries.names es := by
      simpa [Entries.names] using h
    rw [insert]
    split
    · rfl
    · rw [if_neg (Ne.symm hk)]
      exact ((ih hes).cons _).trans (.swap _ _ _)

theorem ofList_perm {pairs : List (String × α)} (h : (names pairs).Nodup) :
    (ofList pairs).Perm pairs := by
  have hfold (es : Entries α) (hes : (names (es ++ pairs)).Nodup) :
      (pairs.foldl (fun es p => insert p.1 p.2 es) es).Perm (es ++ pairs) := by
    induction pairs generalizing es with
    | nil => simp
    | cons p pairs ih =>
      have hmiddle : (es ++ p :: pairs).Perm ((p :: es) ++ pairs) := List.perm_middle
      have hnodup : (names ((p :: es) ++ pairs)).Nodup := ((hmiddle.map _).nodup_iff).1 hes
      have hnew : p.1 ∉ names es := fun hmem => (List.nodup_cons.1 hnodup).1 (by
        rw [List.append_eq, List.map_append]
        exact List.mem_append_left _ hmem)
      have hinsert := (insert_perm hnew p.2).append_right pairs
      have hnodup' : (names (insert p.1 p.2 es ++ pairs)).Nodup :=
        ((hinsert.map _).nodup_iff).2 hnodup
      have hpairs : (names pairs).Nodup := (List.nodup_cons.1 h).2
      exact (ih hpairs _ hnodup').trans (hinsert.trans hmiddle.symm)
  exact hfold [] h

theorem ofList_of_perm {pairs es : List (String × α)} (hes : Sorted es) (h : pairs.Perm es) :
    ofList pairs = es := by
  have hnodup : (names es).Nodup :=
    List.pairwise_map.2 (hes.imp fun {p q} hlt (heq : p.1 = q.1) =>
      String.lt_irrefl q.1 (heq ▸ hlt))
  have hperm := (ofList_perm (((h.map _).nodup_iff).2 hnodup)).trans h
  refine hperm.eq_of_pairwise (fun p q _ _ hpq hqp => ?_) (sorted_ofList pairs) hes
  exact absurd (String.lt_trans hpq hqp) (String.lt_irrefl _)

end Entries

namespace Form

variable {F : Form α} {W : Writing α} {depth : Nat}

theorem LenientAt.entries (h : F.LenientAt W depth) :
    F.entries.LenientAt W.entries (depth + 1) where
  reads {es j} hvalid hfinite hj := by
    cases j with
    | obj members =>
      obtain ⟨ps, hps, hmembers⟩ := hj
      have hread : members.mapM (fun m => (F.decode depth m.2).map (m.1, ·)) = some ps := by
        refine mapM_of_forall₂ hmembers fun p hp m ⟨hname, hm⟩ => ?_
        have hp' := hps.mem_iff.1 hp
        rw [h.reads (hvalid.2 p hp') (hfinite p hp') hm, hname]
        rfl
      have hofList := Entries.ofList_of_perm hvalid.1 hps
      simp only [Form.entries, Decoder.entries, hread, Option.map_some, hofList]
    | _ => cases hj
  self {es} hdepth := by
    rw [Form.entries, depth_obj_le, List.forall_mem_map] at hdepth
    refine ⟨es, .refl es, List.forall₂_map_right_iff.2 (List.forall₂_same.2 fun p hp => ⟨rfl, ?_⟩)⟩
    exact h.self (hdepth p hp)
  fits {es j n} hj hle := by
    cases n with
    | zero => exact hj.elim
    | succ n =>
      cases j with
      | obj members =>
        obtain ⟨ps, hps, hmembers⟩ := hj
        refine ⟨ps, hps, forall₂_of_mem hmembers fun p hp m hm ⟨hname, hpm⟩ => ⟨hname, ?_⟩⟩
        refine h.fits hpm (hle.imp (fun hle => depth_obj_le.1 hle m hm) fun hle => ?_)
        rw [Form.entries, depth_obj_le, List.forall_mem_map] at hle
        exact hle p (hps.mem_iff.1 hp)
      | _ => exact hj.elim

theorem LenientAt.nullable (h : F.LenientAt W depth) (hnull : F.decode depth .null = none) :
    F.nullable.LenientAt W.nullable depth where
  reads {o j} hvalid hfinite hj := by
    cases o with
    | none =>
      rw [show j = .null from hj]
      rfl
    | some x =>
      have hread := h.reads (hvalid x rfl) (hfinite x rfl) hj
      have hj' : j ≠ .null := by
        rintro rfl
        rw [hnull] at hread
        cases hread
      simp only [Form.nullable, Decoder.nullable_of_ne_null hj', hread, Option.map_some]
  self {o} hdepth := by
    cases o with
    | none => rfl
    | some x => exact h.self hdepth
  fits {o j n} hj hle := by
    cases o with
    | none => exact hj
    | some x => exact h.fits (n := n) hj hle

end Form

/-! ## Fields -/

namespace Json

/-- The document is a record of the fields: the object of them, in any order and among other members
that are none of them, or the array of them, in order and without the last ones if these are left out.
-/
def Shows (names : List String) (fields : List (Option Json)) : Json → Prop
  | .obj members => ∃ others : List (String × Json),
    members.Perm (membersOf names fields ++ others) ∧ ∀ m ∈ others, m.1 ∉ names
  | .arr items => ∃ n, fields = items.map some ++ List.replicate n none
  | _ => False

variable {names : List String} {fields : List (Option Json)} {j : Json}

/-- **The fields of a record are found**, if those are there that an array has to have. -/
theorem Shows.fields? (h : j.Shows names fields) (hnodup : names.Nodup)
    (hlength : fields.length = names.length) {least : Nat} (hnames : least ≤ names.length)
    (hleast : ∀ i : Nat, fields[i]? = some none → least ≤ i) :
    j.fields? names least = some fields := by
  cases j with
  | obj members =>
    obtain ⟨others, hperm, hothers⟩ := h
    exact fields?_of_perm hnodup hlength hperm hothers
  | arr items =>
    obtain ⟨n, rfl⟩ := h
    rw [List.length_append, List.length_map, List.length_replicate] at hlength
    have hn : names.length - items.length = n := by omega
    have hitems : least ≤ items.length ∧ items.length ≤ names.length := by
      refine ⟨?_, by omega⟩
      cases n with
      | zero => omega
      | succ n => exact hleast _ (by simp)
    rw [Json.fields?, if_pos hitems, hn]
  | _ => cases h

theorem shows_obj (members : List (String × Json)) :
    (obj members).Shows (members.map (·.1)) (members.map fun m => some m.2) := by
  refine ⟨[], ?_, fun m hm => (nomatch hm)⟩
  rw [membersOf_map, List.append_nil]

theorem Shows.depth_le {depth : Nat} (h : j.Shows names fields) (hlength : fields.length = names.length)
    (hj : j.depth ≤ depth + 1) : ∀ field ∈ fields, ∀ i ∈ field, i.depth ≤ depth := by
  intro field hfield i hi
  cases j with
  | obj members =>
    obtain ⟨others, hperm, -⟩ := h
    obtain ⟨k, hk, rfl⟩ := List.mem_iff_getElem.1 hfield
    have hzip : (names[k], fields[k]) ∈ names.zip fields :=
      List.mem_iff_getElem.2 ⟨k, by rw [List.length_zip]; omega, List.getElem_zip⟩
    have hmem : (names[k], i) ∈ membersOf names fields :=
      List.mem_filterMap.2 ⟨_, hzip, by rw [Option.mem_def.1 hi, Option.map_some]⟩
    exact Form.depth_obj_le.1 hj _ (hperm.mem_iff.2 (List.mem_append_left _ hmem))
  | arr items =>
    obtain ⟨n, rfl⟩ := h
    rcases List.mem_append.1 hfield with hfield | hfield
    · obtain ⟨item, hitem, rfl⟩ := List.mem_map.1 hfield
      cases hi
      exact Form.depth_arr_le.1 hj i hitem
    · rw [List.eq_of_mem_replicate hfield] at hi
      cases hi
  | _ => cases h

end Json

/-! ## Records -/

namespace Row

/-- In which documents each field of a record may be written. -/
def Writings {τ : Type} : Row τ → Type
  | nil => Unit
  | @cons α _ _ _ _ rest => (α → Json → Prop) × rest.Writings

/-- The fields are written in such documents, or left out at their defaults. -/
def Fits {τ : Type} : (row : Row τ) → row.Writings → τ → List (Option Json) → Prop
  | nil, _, _, fields => fields = []
  | cons _ _ _ _, _, _, [] => False
  | cons _ _ default rest, ws, t, field :: fields =>
    (match field with
      | none => default = some t.1
      | some j => ws.1 t.1 j) ∧ rest.Fits ws.2 t.2 fields

/-- The document is a record of fields that are written in such documents. -/
def Written {τ : Type} (row : Row τ) (ws : row.Writings) (t : τ) (j : Json) : Prop :=
  ∃ fields, row.Fits ws t fields ∧ j.Shows row.names fields

/-- The ways of writing records. -/
def writing {τ : Type} (row : Row τ) (ws : Nat → row.Writings) (view : α → τ) : Writing α
  | depth + 1, x, j => row.Written (ws depth) (view x) j
  | _, _, _ => False

/-- How many fields there are before the first one that has a default. -/
def required {τ : Type} : Row τ → Nat
  | nil => 0
  | cons _ _ none rest => rest.required + 1
  | cons _ _ (some _) _ => 0

/-- Every field has a lenient form. -/
def LenientAt {τ : Type} : (row : Row τ) → (Nat → row.Writings) → Nat → Prop
  | nil, _, _ => True
  | cons _ F _ rest, ws, depth =>
    F.LenientAt (fun n => (ws n).1) depth ∧ rest.LenientAt (fun n => (ws n).2) depth

variable {depth : Nat}

theorem required_le {τ : Type} (row : Row τ) : row.required ≤ row.names.length := by
  induction row with
  | nil => exact Nat.le_refl 0
  | cons name F default rest ih =>
    cases default with
    | none => exact Nat.succ_le_succ ih
    | some x => exact Nat.zero_le _

theorem Fits.length_eq {row : Row τ} {ws : row.Writings} {t : τ} {fields : List (Option Json)}
    (h : row.Fits ws t fields) : fields.length = row.names.length := by
  induction row generalizing fields with
  | nil =>
    rw [show fields = [] from h]
    rfl
  | cons name F default rest ih =>
    cases fields with
    | nil => exact h.elim
    | cons field fields => exact congrArg (· + 1) (ih h.2)

/-- What is left out comes after the fields that have to be there. -/
theorem Fits.required_le {row : Row τ} {ws : row.Writings} {t : τ} {fields : List (Option Json)}
    (h : row.Fits ws t fields) {i : Nat} (hi : fields[i]? = some none) : row.required ≤ i := by
  induction row generalizing fields i with
  | nil => exact Nat.zero_le i
  | cons name F default rest ih =>
    cases fields with
    | nil => exact h.elim
    | cons field fields =>
      cases default with
      | some x => exact Nat.zero_le i
      | none =>
        cases i with
        | zero =>
          obtain rfl : field = none := Option.some.inj hi
          cases h.1
        | succ i => exact Nat.succ_le_succ (ih h.2 hi)

theorem LenientAt.reads {row : Row τ} {ws : Nat → row.Writings} (h : row.LenientAt ws depth) {t : τ}
    (hvalid : row.Valid t) (hfinite : row.Finite t) {fields : List (Option Json)}
    (hfields : row.Fits (ws depth) t fields) : row.decode depth fields some = some t := by
  induction row generalizing fields with
  | nil =>
    rw [show fields = [] from hfields]
    rfl
  | cons name F default rest ih =>
    cases fields with
    | nil => exact hfields.elim
    | cons field fields =>
      refine decode_cons_iff.2 ⟨?_, ih h.2 hvalid.2 hfinite.2 hfields.2⟩
      cases field with
      | none =>
        rw [show default = some t.1 from hfields.1]
        rfl
      | some j =>
        have hread := h.1.reads hvalid.1 hfinite.1 hfields.1
        cases default <;> exact hread

theorem LenientAt.fits_members {row : Row τ} {ws : Nat → row.Writings} (h : row.LenientAt ws depth)
    {t : τ} (hdepth : ∀ m ∈ row.members t, m.2.depth ≤ depth) :
    row.Fits (ws depth) t ((row.members t).map fun m => some m.2) := by
  induction row with
  | nil => rfl
  | cons name F default rest ih =>
    rw [members, List.forall_mem_cons] at hdepth
    exact ⟨h.1.self hdepth.1, ih h.2 hdepth.2⟩

theorem LenientAt.fits {row : Row τ} {ws : Nat → row.Writings} (h : row.LenientAt ws depth) {t : τ}
    {fields : List (Option Json)} {n : Nat} (hfields : row.Fits (ws n) t fields)
    (hdepth : (∀ field ∈ fields, ∀ j ∈ field, j.depth ≤ depth) ∨
      ∀ m ∈ row.members t, m.2.depth ≤ depth) : row.Fits (ws depth) t fields := by
  induction row generalizing fields with
  | nil => exact hfields
  | cons name F default rest ih =>
    cases fields with
    | nil => exact hfields.elim
    | cons field fields =>
      rw [members, List.forall_mem_cons, List.forall_mem_cons] at hdepth
      refine ⟨?_, ih h.2 hfields.2 (hdepth.imp And.right And.right)⟩
      cases field with
      | none => exact hfields.1
      | some j => exact h.1.fits (n := n) hfields.1 (hdepth.imp (fun hd => hd.1 j rfl) And.left)

end Row

namespace Form

/-- **A record of fields with lenient forms has a lenient form.** -/
theorem IsRecord.lenientAt_succ {row : Row τ} {view : α → τ} {make : τ → α} {least depth : Nat}
    {toJson : α → Json} {decode : Decoder α} (h : IsRecord row view make least toJson decode)
    (hleast : least ≤ row.required) {ws : Nat → row.Writings} (hrow : row.LenientAt ws depth) :
    (ofRow row view toJson decode).LenientAt (row.writing ws view) (depth + 1) where
  reads {x j} hvalid hfinite hj := by
    obtain ⟨fields, hfields, hshows⟩ := hj
    refine h.decode_eq_some_iff.2 ⟨fields, ?_, hrow.reads hvalid hfinite hfields⟩
    exact hshows.fields? h.nodup hfields.length_eq (Nat.le_trans hleast row.required_le) fun i hi =>
      Nat.le_trans hleast (hfields.required_le hi)
  self {x} hdepth := by
    change (toJson x).depth ≤ depth + 1 at hdepth
    change row.Written (ws depth) (view x) (toJson x)
    rw [h.toJson_eq] at hdepth ⊢
    refine ⟨_, hrow.fits_members (depth_obj_le.1 hdepth), ?_⟩
    rw [← row.names_members (view x)]
    exact Json.shows_obj _
  fits {x j n} hj hdepth := by
    match n, hj with
    | n + 1, ⟨fields, hfields, hshows⟩ =>
      refine ⟨fields, hrow.fits hfields (hdepth.imp (hshows.depth_le hfields.length_eq) ?_), hshows⟩
      intro hle
      change (toJson x).depth ≤ depth + 1 at hle
      rw [h.toJson_eq] at hle
      exact depth_obj_le.1 hle

theorem IsRecord.lenientAt_zero {row : Row τ} {view : α → τ} {make : τ → α} {least : Nat}
    {toJson : α → Json} {decode : Decoder α} (h : IsRecord row view make least toJson decode)
    (ws : Nat → row.Writings) :
    (ofRow row view toJson decode).LenientAt (row.writing ws view) 0 := by
  refine Form.lenientAt_zero (fun _ _ hj => hj) (fun x => ?_) fun n x j hj => ?_
  · change 0 < (toJson x).depth
    rw [h.toJson_eq]
    exact Nat.succ_pos _
  · match n, j, hj with
    | n + 1, .obj _, _ => exact Nat.succ_pos _
    | n + 1, .arr _, _ => exact Nat.succ_pos _
    | n + 1, .null, ⟨_, _, hshows⟩ => cases hshows

end Form

end AnnotationLookup
