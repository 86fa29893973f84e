import AnnotationLookup.Proofs.Form.Lenient
import AnnotationLookup.Proofs.Form.RoundTrip

/-!
# Documents of records, whole and lacking

* `Json.HasField`: the document of a record has a field, or leaves it out;
* `Row.Lacks`: it leaves out a field that has no default;
* `Form.IsRecord.decode_eq_none`: a record is refused with any of its fields;
* `DocumentKind`: values, annotations, methods and classes, with the ways of writing them;
* `DocumentKind.Lacks`: a record in a document lacks a field, however deep inside;
* **`DocumentKind.reads_written`**: a document is read whichever way it is written, and is refused where
  it lacks a field.
-/

namespace AnnotationLookup

variable {α β τ : Type} {names : List String} {name : String} {field : Option Json} {j : Json}

/-! ## Fields that are there or not -/

namespace Json

/-- The document of a record has such a field of the name, or leaves it out. -/
def HasField (names : List String) (name : String) (field : Option Json) : Json → Prop
  | .obj members =>
    match field with
    | some part => (name, part) ∈ members
    | none => ∀ m ∈ members, m.1 ≠ name
  | .arr items => ∃ i : Nat, names[i]? = some name ∧ items[i]? = field
  | _ => False

theorem HasField.eq_of_uniqueMember? {members : List (String × Json)} {found : Option Json}
    (h : (obj members).HasField names name field) (hfound : uniqueMember? members name = some found) :
    found = field := by
  unfold uniqueMember? at hfound
  cases field with
  | none =>
    have hnone : members.filter (·.1 == name) = [] := by
      rw [List.filter_eq_nil_iff]
      exact fun m hm heq => h m hm (eq_of_beq heq)
    rw [hnone] at hfound
    exact (Option.some.inj hfound).symm
  | some part =>
    have hmem : (name, part) ∈ members.filter (·.1 == name) :=
      List.mem_filter.2 ⟨h, beq_self_eq_true name⟩
    split at hfound
    · next hnil =>
      rw [hnil] at hmem
      exact absurd hmem List.not_mem_nil
    · next hone =>
      rw [hone, List.mem_singleton] at hmem
      cases hmem
      exact (Option.some.inj hfound).symm
    · cases hfound

theorem HasField.mem_zip (h : j.HasField names name field) (hname : name ∈ names) {least : Nat}
    {fields : List (Option Json)} (hfields : j.fields? names least = some fields) :
    (name, field) ∈ names.zip fields := by
  cases j with
  | obj members =>
    obtain ⟨found, hfound, hmem⟩ := Form.mem_zip_of_mapM hfields hname
    rwa [h.eq_of_uniqueMember? hfound] at hmem
  | arr items =>
    obtain ⟨i, hn, hi⟩ := h
    simp only [Json.fields?] at hfields
    split at hfields
    · cases hfields
      -- Behind the items stands what is left out.
      have hfield : (items.map some ++ List.replicate (names.length - items.length) none)[i]? =
          some field := by
        grind
      exact List.mem_iff_getElem?.2 ⟨i, List.getElem?_zip_eq_some.2 ⟨hn, hfield⟩⟩
    · cases hfields
  | _ => cases hfields

end Json

namespace Row

variable {depth : Nat}

/-- The field of the name has no default. -/
def Requires {τ : Type} (name : String) : Row τ → Prop
  | nil => False
  | cons n _ default rest => (n = name ∧ default = none) ∨ rest.Requires name

/-- The field of the name cannot be such. -/
def Refuses {τ : Type} (depth : Nat) (name : String) (field : Option Json) : Row τ → Prop
  | nil => False
  | cons n F default rest =>
    (n = name ∧ readField F default depth field = none) ∨ rest.Refuses depth name field

/-- A field that has no default is left out. -/
def Lacks {τ : Type} (row : Row τ) (j : Json) : Prop :=
  ∃ name, row.Requires name ∧ j.HasField row.names name none

theorem Requires.refuses {row : Row τ} (h : row.Requires name) : row.Refuses depth name none := by
  induction row with
  | nil => exact h
  | cons n F default rest ih =>
    rcases h with ⟨hn, rfl⟩ | h
    · exact .inl ⟨hn, rfl⟩
    · exact .inr (ih h)

theorem Refuses.mem_names {row : Row τ} (h : row.Refuses depth name field) : name ∈ row.names := by
  induction row with
  | nil => exact h.elim
  | cons n F default rest ih =>
    rcases h with ⟨rfl, -⟩ | h
    · exact List.mem_cons_self
    · exact List.mem_cons_of_mem _ (ih h)

/-- A record is not read with a field that it refuses. -/
theorem Refuses.decode_eq_none {row : Row τ} (h : row.Refuses depth name field)
    (hnodup : row.names.Nodup) {fields : List (Option Json)}
    (hfield : (name, field) ∈ row.names.zip fields) (k : τ → Option α) :
    row.decode depth fields k = none := by
  induction row generalizing fields with
  | nil => exact h.elim
  | cons n F default rest ih =>
    obtain ⟨hn, hnodup⟩ := List.nodup_cons.1 hnodup
    cases fields with
    | nil => rfl
    | cons found fields =>
      rcases List.mem_cons.1 hfield with heq | hfield
      · obtain ⟨rfl, rfl⟩ := Prod.mk.inj heq
        rcases h with ⟨-, h⟩ | h
        · rw [decode, h, Option.bind_none]
        · exact absurd h.mem_names hn
      · rcases h with ⟨rfl, -⟩ | h
        · exact absurd (List.of_mem_zip hfield).1 hn
        · have hrest (x : _) : (rest.decode depth fields fun t => k (x, t)) = none :=
            ih h hnodup hfield _
          simp only [decode, hrest, Option.bind_fun_none]

end Row

namespace Form

variable {row : Row τ} {view : α → τ} {make : τ → α} {least : Nat} {toJson : α → Json}
  {decode : Decoder α}

/-- **A record is refused with each of its fields.** -/
theorem IsRecord.decode_eq_none (h : IsRecord row view make least toJson decode)
    (hfield : j.HasField row.names name field) (hrefuses : ∀ depth, row.Refuses depth name field)
    (depth : Nat) : decode depth j = none := by
  cases depth with
  | zero => exact h.decode_zero j
  | succ depth =>
    rw [h.decode_succ]
    cases hfields : j.fields? row.names least with
    | none => rfl
    | some fields =>
      have hmem := hfield.mem_zip (hrefuses depth).mem_names hfields
      exact (hrefuses depth).decode_eq_none h.nodup hmem _

theorem IsRecord.decode_of_lacks (h : IsRecord row view make least toJson decode) (hj : row.Lacks j)
    (depth : Nat) : decode depth j = none := by
  obtain ⟨name, hname, hfield⟩ := hj
  exact h.decode_eq_none hfield (fun _ => hname.refuses) depth

theorem list_decode_eq_none {F : Form α} {items : List Json} (hj : j ∈ items)
    (h : ∀ depth, F.decode depth j = none) : (depth : Nat) → F.list.decode depth (.arr items) = none
  | 0 => rfl
  | depth + 1 => mapM_eq_none hj (h depth)

theorem entries_decode_eq_none {F : Form α} {members : List (String × Json)} {m : String × Json}
    (hm : m ∈ members) (h : ∀ depth, F.decode depth m.2 = none) :
    (depth : Nat) → F.entries.decode depth (.obj members) = none
  | 0 => rfl
  | depth + 1 => by
    have hread : members.mapM (fun m => (F.decode depth m.2).map (m.1, ·)) = none :=
      mapM_eq_none hm (by rw [h, Option.map_none])
    simp only [Form.entries, Decoder.entries, hread, Option.map_none]

end Form

/-! ## Values, annotations, methods and classes -/

/-- What a document may be a document of. -/
inductive DocumentKind
  | value
  | record
  | method
  | compiledClass
deriving DecidableEq, Repr

namespace DocumentKind

/-- The values that documents of the kind denote. -/
abbrev Carrier : DocumentKind → Type
  | value => Value
  | record => AnnotationRecord
  | method => CompiledMethod
  | compiledClass => CompiledClass

/-- The form of these values. -/
def form : (t : DocumentKind) → Form t.Carrier
  | value => Form.value
  | record => Form.record
  | method => Form.method
  | compiledClass => Form.compiledClass

/-- In which documents something may be written, where so many containers may be opened on the way to
its parts. -/
def Written : (t : DocumentKind) → Writing t.Carrier
  | value => Value.Written
  | record => AnnotationRecord.Written
  | method => Form.methodWriting
  | compiledClass => Form.classWriting

theorem lenient_form : (t : DocumentKind) → t.form.Lenient t.Written
  | value => Form.lenient_value
  | record => Form.lenient_record
  | method => Form.lenient_method
  | compiledClass => Form.lenient_compiledClass

theorem written_toJson (t : DocumentKind) (x : t.Carrier) :
    t.Written (t.form.nesting x) x (t.form.toJson x) :=
  (t.lenient_form _).self (Nat.le_refl _)

/-- A record in the document, which may be the document itself, lacks a field that has no default. -/
inductive Lacks : DocumentKind → Json → Prop
  | constant {body : Json} : Form.constantRow.Lacks body → Lacks value (.obj [("Enum", body)])
  | nested {body : Json} : Lacks record body → Lacks value (.obj [("Annotation", body)])
  | item {items : List Json} {i : Json} : i ∈ items → Lacks value i →
    Lacks value (.obj [("Array", .arr items)])
  | record {j : Json} : Form.recordRow.Lacks j → Lacks record j
  | entry {j : Json} {members : List (String × Json)} {m : String × Json} :
    j.HasField Form.recordRow.names "values" (some (.obj members)) → m ∈ members → Lacks value m.2 →
    Lacks record j
  | method {j : Json} : Form.methodRow.Lacks j → Lacks method j
  | methodAnnotation {j : Json} {items : List Json} {i : Json} :
    j.HasField Form.methodRow.names "annotations" (some (.arr items)) → i ∈ items → Lacks record i →
    Lacks method j
  | methodDefault {j part : Json} :
    j.HasField Form.methodRow.names "default_value" (some part) → Lacks value part → Lacks method j
  | compiledClass {j : Json} : Form.classRow.Lacks j → Lacks compiledClass j
  | classAnnotation {j : Json} {items : List Json} {i : Json} :
    j.HasField Form.classRow.names "annotations" (some (.arr items)) → i ∈ items → Lacks record i →
    Lacks compiledClass j
  | classMethod {j : Json} {items : List Json} {i : Json} :
    j.HasField Form.classRow.names "methods" (some (.arr items)) → i ∈ items → Lacks method i →
    Lacks compiledClass j

theorem tagged_eq_none {body : Json} {kind : String} {β : Type} {d : Decoder β} {make : β → Value}
    (hdecode : ∀ depth, Form.value.decode (depth + 1) (.obj [(kind, body)]) = (d depth body).map make)
    (h : ∀ depth, d depth body = none) :
    (depth : Nat) → Form.value.decode depth (.obj [(kind, body)]) = none
  | 0 => rfl
  | depth + 1 => by rw [hdecode, h, Option.map_none]

/-- **A document that lacks a field is refused.** -/
theorem Lacks.decode_eq_none {t : DocumentKind} (h : t.Lacks j) (depth : Nat) :
    t.form.decode depth j = none := by
  induction h generalizing depth with
  | @constant body h =>
    have hdecode (depth : Nat) : Form.value.decode (depth + 1) (.obj [("Enum", body)]) =
        (Form.constant.decode depth body).map fun c => .enumConstant c.1 c.2 :=
      Form.decodeConstant_eq body
    exact tagged_eq_none hdecode (Form.isRecord_constant.decode_of_lacks h) depth
  | nested _ ih => exact tagged_eq_none (fun _ => rfl) ih depth
  | item hi _ ih =>
    refine tagged_eq_none (fun _ => rfl) (fun depth => ?_) depth
    rw [Value.decodeItems_eq]
    exact Form.list_decode_eq_none hi ih depth
  | record h => exact Form.isRecord_record.decode_of_lacks h depth
  | entry hvalues hm _ ih =>
    refine Form.isRecord_record.decode_eq_none hvalues (fun depth => .inr (.inl ⟨rfl, ?_⟩)) depth
    exact Form.entries_decode_eq_none hm ih depth
  | method h => exact Form.isRecord_method.decode_of_lacks h depth
  | methodAnnotation hannotations hi _ ih =>
    refine Form.isRecord_method.decode_eq_none hannotations
      (fun depth => .inr (.inr (.inl ⟨rfl, ?_⟩))) depth
    exact Form.list_decode_eq_none hi ih depth
  | @methodDefault _ part hdefault hpart ih =>
    have hnull : part ≠ .null := by
      rintro rfl
      cases hpart
    have hread (depth : Nat) : Decoder.nullable (Value.decode .text) depth part = none := by
      rw [Decoder.nullable_of_ne_null hnull]
      exact Option.map_eq_none_iff.2 (ih depth)
    exact Form.isRecord_method.decode_eq_none hdefault
      (fun depth => .inr (.inr (.inr (.inl ⟨rfl, hread depth⟩)))) depth
  | compiledClass h => exact Form.isRecord_compiledClass.decode_of_lacks h depth
  | classAnnotation hannotations hi _ ih =>
    refine Form.isRecord_compiledClass.decode_eq_none hannotations
      (fun depth => .inr (.inr (.inl ⟨rfl, ?_⟩))) depth
    exact Form.list_decode_eq_none hi ih depth
  | classMethod hmethods hi _ ih =>
    refine Form.isRecord_compiledClass.decode_eq_none hmethods
      (fun depth => .inr (.inr (.inr (.inl ⟨rfl, ?_⟩)))) depth
    exact Form.list_decode_eq_none hi ih depth

theorem read_eq_decode (t : DocumentKind) {source : String} (hsource : Json.read? source = some j) :
    t.form.read source = t.form.decode maxDepth j := by
  rw [Form.read, Decoder.ofText?, hsource, Option.bind_some]

/-- **Whichever way a document is written, it is read.** Objects may have their members in any order,
records may have members of no meaning, may leave out what is at its default, and may be arrays of their
fields; and all of this may be so in any of their parts. What is written is read if no more containers
have to be opened than may be; the containers of the document suffice for this, and so do those of the
form. A document that lacks a field without default is refused. -/
theorem reads_written (t : DocumentKind) :
    (∀ x j source, t.form.Valid x → t.form.Finite x → Json.read? source = some j →
      t.Written maxDepth x j → t.form.read source = some x) ∧
    (∀ x j n, t.Written n x j → j.depth ≤ maxDepth ∨ t.form.nesting x ≤ maxDepth →
      t.Written maxDepth x j) ∧
    (∀ x, t.Written (t.form.nesting x) x (t.form.toJson x)) ∧
    ∀ j source, t.Lacks j → Json.read? source = some j → t.form.read source = none := by
  refine ⟨fun x j source hvalid hfinite hsource hj => ?_, fun x j n hj hdepth => ?_, t.written_toJson,
    fun j source hlacks hsource => ?_⟩
  · rw [t.read_eq_decode hsource]
    exact (t.lenient_form maxDepth).reads hvalid hfinite hj
  · exact (t.lenient_form maxDepth).fits hj hdepth
  · rw [t.read_eq_decode hsource]
    exact hlacks.decode_eq_none maxDepth

/-! ## A class in other words -/

/-- A class with an annotation, and a method without anything but a name. -/
def route : CompiledClass where
  name := "a.Route"
  kind := .annotationType
  annotations := [⟨"Kept", [("policy", .enumConstant "a.Policy" "SOURCE")]⟩]
  methods := [{ name := "path" }]

/-- The annotation as an array, in which the enum constant has a member of no meaning. -/
def keptDocument : Json := .arr [.str "Kept", .obj [("policy", .obj [("Enum",
  .obj [("since", .null), ("constant", .str "SOURCE"), ("type_name", .str "a.Policy")])])]]

/-- The class with its members in another order, and the method as an array. -/
def routeDocument : Json := .obj [("methods", .arr [.arr [.str "path"]]),
  ("annotations", .arr [keptDocument]), ("kind", .str "Annotation"), ("name", .str "a.Route")]

theorem written_routeDocument : compiledClass.Written 6 route routeDocument := by
  have hconstant : Form.constantWriting 1 ("a.Policy", "SOURCE") (.obj
      [("since", .null), ("constant", .str "SOURCE"), ("type_name", .str "a.Policy")]) :=
    ⟨[some (.str "a.Policy"), some (.str "SOURCE")], ⟨rfl, rfl, rfl⟩, [("since", .null)],
      List.reverse_perm [_, _, _], by decide⟩
  have hvalue : Value.Written 2 (.enumConstant "a.Policy" "SOURCE") (.obj [("Enum", .obj
      [("since", .null), ("constant", .str "SOURCE"), ("type_name", .str "a.Policy")])]) :=
    ⟨_, rfl, hconstant⟩
  have hrecord : AnnotationRecord.Written 4
      ⟨"Kept", [("policy", .enumConstant "a.Policy" "SOURCE")]⟩ keptDocument :=
    ⟨[some (.str "Kept"), some (.obj _)], ⟨rfl, ⟨_, .refl _, .cons ⟨rfl, hvalue⟩ .nil⟩, rfl⟩, 0, rfl⟩
  have hmethod : Form.methodWriting 4 { name := "path" } (.arr [.str "path"]) :=
    ⟨[some (.str "path"), none, none, none], ⟨rfl, rfl, rfl, rfl, rfl⟩, 3, rfl⟩
  refine ⟨[some (.str "a.Route"), some (.str "Annotation"), some (.arr [keptDocument]),
    some (.arr [.arr [.str "path"]])], ⟨rfl, rfl, ?_, ?_, rfl⟩, [], List.reverse_perm [_, _, _, _], nofun⟩
  · exact .cons hrecord .nil
  · exact .cons hmethod .nil

/-- A class with a method that has no name. -/
def namelessDocument : Json :=
  .obj [("name", .str "a.Route"), ("kind", .str "Annotation"), ("methods", .arr [.obj []])]

theorem lacks_namelessDocument : compiledClass.Lacks namelessDocument := by
  have hmethod : Form.methodRow.Lacks (.obj []) := ⟨"name", .inl ⟨rfl, rfl⟩, nofun⟩
  have hmethods :
      namelessDocument.HasField Form.classRow.names "methods" (some (.arr [.obj []])) :=
    List.mem_cons_of_mem _ (List.mem_cons_of_mem _ List.mem_cons_self)
  exact .classMethod hmethods List.mem_cons_self (.method hmethod)

/-- The class is read in these words, but not with a method that has no name. -/
theorem reads_written_of_route :
    compiledClass.form.read routeDocument.render = some route ∧
      compiledClass.form.read namelessDocument.render = none := by
  have hvalid : compiledClass.form.Valid route :=
    ⟨trivial, trivial,
      List.forall_mem_singleton.2 ⟨trivial, ⟨List.pairwise_singleton _ _, List.forall_mem_singleton.2
        trivial⟩, trivial⟩,
      List.forall_mem_singleton.2 ⟨trivial, nofun, nofun, nofun, trivial⟩, trivial⟩
  have hfinite : compiledClass.form.Finite route :=
    ⟨trivial, trivial, List.forall_mem_singleton.2 ⟨trivial, List.forall_mem_singleton.2 trivial,
      trivial⟩, List.forall_mem_singleton.2 ⟨trivial, nofun, nofun, nofun, trivial⟩, trivial⟩
  have hkept : keptDocument.Leaves Json.Writable :=
    ⟨trivial, ⟨⟨⟨trivial, trivial, trivial, trivial⟩, trivial⟩, trivial⟩, trivial⟩
  have hroute : Json.read? routeDocument.render = some routeDocument :=
    Json.read?_render ⟨⟨⟨trivial, trivial⟩, trivial⟩, ⟨hkept, trivial⟩, trivial, trivial, trivial⟩
  have hnameless : Json.read? namelessDocument.render = some namelessDocument :=
    Json.read?_render ⟨trivial, trivial, ⟨trivial, trivial⟩, trivial⟩
  obtain ⟨hreads, hfits, -, hlacks⟩ := reads_written .compiledClass
  have hwritten : compiledClass.Written maxDepth route routeDocument :=
    hfits route routeDocument 6 written_routeDocument (.inl (by decide))
  exact ⟨hreads route routeDocument _ hvalid hfinite hroute hwritten,
    hlacks namelessDocument _ lacks_namelessDocument hnameless⟩

/-! ## The limits -/

theorem holds_inArrays (n : Nat) : value.form.Valid (ModelType.inArrays (.boolean true) n) ∧
    value.form.Finite (ModelType.inArrays (.boolean true) n) := by
  induction n with
  | zero => exact ⟨trivial, trivial⟩
  | succ n ih =>
    exact ⟨Value.holds_array_iff.2 (List.forall_mem_singleton.2 ih.1),
      Value.holds_array_iff.2 (List.forall_mem_singleton.2 ih.2)⟩

theorem nesting_inArrays (n : Nat) :
    value.form.nesting (ModelType.inArrays (.boolean true) n) = 1 + 2 * n := by
  change (ModelType.inArrays (.boolean true) n).toJson.depth = _
  rw [ModelType.toJson_inArrays, ModelType.depth_inArraysJson]
  rfl

/-- **Not every document is read that is written**: the form of a value may have more containers than
may be opened. And a document is not refused because a field is left out whose default is another one.
-/
theorem not_reads_written :
    (¬ ∀ (x : Value) (j : Json) (n : Nat) (source : String), value.form.Valid x → value.form.Finite x →
      value.Written n x j → Json.read? source = some j → value.form.read source = some x) ∧
    ¬ ∀ (m : CompiledMethod) (members : List (String × Json)) (part : Json) (source : String),
      method.form.toJson m = .obj (members ++ [("default_value", part)]) → m.defaultValue ≠ none →
      Json.read? source = some (.obj members) → method.form.read source = none := by
  constructor
  · intro h
    have hdepth (n : Nat) : 1 + 2 * n ≤ maxDepth := by
      obtain ⟨hvalid, hfinite⟩ := holds_inArrays n
      have hwritten := value.written_toJson (ModelType.inArrays (.boolean true) n)
      have hsource := Json.read?_render ((Form.faithful_value _).writable hvalid (Nat.le_refl _))
      have hread := h _ _ _ _ hvalid hfinite hwritten hsource
      rw [← nesting_inArrays]
      exact ((Form.faithful_value.read_write_iff hvalid).1 hread).2.2
    exact absurd (hdepth 64) (by decide)
  · intro h
    have hleaves : (Json.obj [("name", .str "m"), ("parameter_types", .arr []),
        ("annotations", .arr [])]).Leaves Json.Writable :=
      ⟨trivial, trivial, trivial, trivial⟩
    have hsource := Json.read?_render hleaves
    have hnone := h { name := "m", defaultValue := some (.boolean true) } _ _ _ rfl nofun hsource
    rw [read_eq_decode _ hsource] at hnone
    cases hnone

end DocumentKind

end AnnotationLookup
