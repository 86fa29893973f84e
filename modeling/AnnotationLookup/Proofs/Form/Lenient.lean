import AnnotationLookup.Proofs.Form.Records
import AnnotationLookup.Proofs.Form.Writing

/-!
# Lenient documents

Values, annotations, methods and classes can be written in more than one way: members of objects in any
order, records with members of no meaning, without what is at its default, or as arrays of their fields.

* `Form.constant`: the type and the name of an enum constant, as a record;
* `Json.Tagged`, `Value.Written`, `AnnotationRecord.Written`: the ways of writing values and
  annotations;
* `Form.methodWriting`, `Form.classWriting`: those of methods and classes;
* `Form.LenientValues.lawsAt`, `Form.LenientValues.succ`: with one container more, values are what is
  made of them;
* **`Form.lenient_value`**, **`Form.lenient_record`**, **`Form.lenient_method`**,
  **`Form.lenient_compiledClass`**: all that is written is read.
-/

namespace AnnotationLookup

namespace Form

variable {α : Type} {depth : Nat}

/-! ## Enum constants -/

/-- The fields of an enum constant. -/
def constantRow : Row (String × String × Unit) :=
  .cons "type_name" text none <| .cons "constant" text none .nil

/-- The document of an enum constant. -/
def constantToJson (c : String × String) : Json :=
  .obj [("type_name", .str c.1), ("constant", .str c.2)]

/-- Reads the type and the name of an enum constant. -/
def decodeNames : Decoder (String × String)
  | depth + 1, j => (j.fields? constantRow.names 2).bind fun fields =>
    constantRow.decode depth fields fun t => some (t.1, t.2.1)
  | 0, _ => none

/-- The type and the name of an enum constant. -/
def constant : Form (String × String) :=
  ofRow constantRow (fun c => (c.1, c.2, ())) constantToJson decodeNames

theorem isRecord_constant : IsRecord constantRow (fun c : String × String => (c.1, c.2, ()))
    (fun t => (t.1, t.2.1)) 2 constantToJson decodeNames where
  nodup := by decide
  make_view _ := rfl
  view_make _ := rfl
  toJson_eq _ := rfl
  decode_zero _ := rfl
  decode_succ _ _ := rfl

theorem decodeConstant_eq (j : Json) :
    decodeConstant .text depth j = (constant.decode depth j).map fun c => .enumConstant c.1 c.2 := by
  cases depth with
  | zero => rfl
  | succ depth =>
    have hconstant : constant.decode (depth + 1) j =
        (j.fields? ["type_name", "constant"] 2).bind fun fields =>
          constantRow.decode depth fields fun t => some (t.1, t.2.1) := rfl
    rw [decodeConstant, if_neg (by simp), hconstant, Option.map_bind]
    refine bind_fields?_congr fun fields hlength => ?_
    obtain ⟨typeName, name, rfl⟩ := List.length_eq_two.1 hlength
    change ((Decoder.text.required depth typeName).bind fun a =>
        (Decoder.text.required depth name).bind fun b => some (Value.enumConstant a b)) =
      ((Decoder.text.required depth typeName).bind fun a =>
        (Decoder.text.required depth name).bind fun b => some (a, b)).map _
    cases Decoder.text.required depth typeName with
    | none => rfl
    | some a => cases Decoder.text.required depth name <;> rfl

theorem lenient_text : text.Lenient (.exact text) := faithful_text.lenient fun _ => rfl

/-- The ways of writing the content of an enum constant. -/
def constantWriting : Writing (String × String) :=
  constantRow.writing (fun depth => (Writing.exact text depth, Writing.exact text depth, ()))
    fun c => (c.1, c.2, ())

theorem lenient_constant : constant.Lenient constantWriting
  | 0 => isRecord_constant.lenientAt_zero _
  | depth + 1 => isRecord_constant.lenientAt_succ (Nat.le_refl 2)
    ⟨lenient_text depth, lenient_text depth, trivial⟩

end Form

/-! ## Values and annotations -/

/-- The document is an object with one member, which is named for what its body is. -/
def Json.Tagged (name : String) (p : Json → Prop) (j : Json) : Prop :=
  ∃ body, j = .obj [(name, body)] ∧ p body

mutual

/-- In which documents a value may be written, where so many containers may be opened on the way to its
parts. -/
def Value.Written : Nat → Value → Json → Prop
  | 0, _, _ => False
  | depth + 1, v, j =>
    match v with
    | .boolean b => j.Tagged "Boolean" (Writing.exact Form.bool depth b)
    | .int n => j.Tagged "Int" (Writing.exact Form.int64 depth n)
    | .float x => j.Tagged "Float" (Writing.exact Form.float depth x)
    | .char c => j.Tagged "Char" (Writing.exact Form.char depth c)
    | .string s => j.Tagged "String" (Writing.exact Form.text depth s)
    | .classRef t => j.Tagged "Class" (Writing.exact Form.typeName depth t)
    | .enumConstant typeName constant =>
      j.Tagged "Enum" (Form.constantWriting depth (typeName, constant))
    | .nested a => j.Tagged "Annotation" (AnnotationRecord.Written depth a)
    | .array items => j.Tagged "Array" (Value.WrittenItems depth items)

/-- The documents in which a record may be written. -/
def AnnotationRecord.Written : Nat → AnnotationRecord → Json → Prop
  | 0, _, _ => False
  | depth + 1, a, j =>
    Form.recordRow.Written (Writing.exact Form.text depth, Value.WrittenTable depth, ())
      (a.typeName, a.values, ()) j

/-- The documents in which the items of an array may be written. -/
def Value.WrittenItems : Nat → List Value → Json → Prop
  | depth + 1, items, .arr js => List.Forall₂ (Value.Written depth) items js
  | _, _, _ => False

/-- Values by the names of their parameters, in any order. -/
def Value.WrittenTable : Nat → Entries Value → Json → Prop
  | depth + 1, values, .obj members => ∃ ps : List (String × Value), ps.Perm values ∧
    List.Forall₂ (fun p (m : String × Json) => m.1 = p.1 ∧ Value.Written depth p.2 m.2) ps members
  | _, _, _ => False

end

theorem Value.writtenItems_eq : Value.WrittenItems = Writing.list Value.Written := by
  funext depth items j
  cases depth <;> cases j <;> rfl

theorem Value.writtenTable_eq : Value.WrittenTable = Writing.entries Value.Written := by
  funext depth values j
  cases depth <;> cases j <;> rfl

namespace Form

variable {α β : Type} {depth : Nat}

/-- The ways of writing annotations. -/
def recordWritings (depth : Nat) : recordRow.Writings :=
  (Writing.exact text depth, Value.WrittenTable depth, ())

theorem record_written_eq :
    AnnotationRecord.Written = recordRow.writing recordWritings fun a => (a.typeName, a.values, ()) := by
  funext depth a j
  cases depth <;> rfl

/-- What values, records and the collections of values are made of, where so many containers may be
opened. -/
structure LenientValues (depth : Nat) : Prop where
  values : value.LenientAt Value.Written depth
  records : record.LenientAt AnnotationRecord.Written depth
  items : value.list.LenientAt Value.WrittenItems depth
  tables : value.entries.LenientAt Value.WrittenTable depth

namespace LenientValues

/-- The laws of the writing for one value, where so many containers may be opened inside it. -/
structure LawsAt (v : Value) (depth : Nat) : Prop where
  reads {j : Json} : value.Valid v → value.Finite v → Value.Written (depth + 1) v j →
    value.decode (depth + 1) j = some v
  self : (value.toJson v).depth ≤ depth + 1 → Value.Written (depth + 1) v (value.toJson v)
  fits {j : Json} {n : Nat} : Value.Written (n + 1) v j →
    j.depth ≤ depth + 1 ∨ (value.toJson v).depth ≤ depth + 1 → Value.Written (depth + 1) v j

theorem lawsAt_tagged (make : β → Value) (name : String) {G : Form β} {V : Writing β} {b : β}
    (h : G.LenientAt V depth) (hdecode : ∀ body, value.decode (depth + 1) (.obj [(name, body)]) =
      (G.decode depth body).map make)
    (htoJson : value.toJson (make b) = .obj [(name, G.toJson b)])
    (hwritten : ∀ n j, Value.Written (n + 1) (make b) j ↔ j.Tagged name (V n b))
    (hvalid : value.Valid (make b) → G.Valid b) (hfinite : value.Finite (make b) → G.Finite b) :
    LawsAt (make b) depth where
  reads hv hf hj := by
    obtain ⟨body, rfl, hbody⟩ := (hwritten _ _).1 hj
    rw [hdecode, h.reads (hvalid hv) (hfinite hf) hbody, Option.map_some]
  self hdepth := by
    rw [htoJson] at hdepth ⊢
    rw [depth_obj_le, List.forall_mem_singleton] at hdepth
    exact (hwritten _ _).2 ⟨_, rfl, h.self hdepth⟩
  fits hj hdepth := by
    obtain ⟨body, rfl, hbody⟩ := (hwritten _ _).1 hj
    rw [htoJson, depth_obj_le, depth_obj_le, List.forall_mem_singleton, List.forall_mem_singleton]
      at hdepth
    exact (hwritten _ _).2 ⟨body, rfl, h.fits hbody hdepth⟩

theorem tagged_of_written {n : Nat} {v : Value} {j : Json} (h : Value.Written n v j) :
    ∃ name body, j = .obj [(name, body)] := by
  cases n with
  | zero => exact h.elim
  | succ n =>
    cases v with
    | boolean | int | float | char | string | classRef | enumConstant | nested | array =>
      obtain ⟨body, rfl, -⟩ := h
      exact ⟨_, body, rfl⟩

theorem zero : LenientValues 0 where
  values := by
    refine lenientAt_zero (fun _ _ hj => hj) (fun v => ?_) fun n v j hj => ?_
    · cases v <;> exact Nat.succ_pos _
    · obtain ⟨name, body, rfl⟩ := tagged_of_written hj
      exact Nat.succ_pos _
  records := record_written_eq ▸ isRecord_record.lenientAt_zero recordWritings
  items := by
    refine lenientAt_zero (fun _ _ hj => hj) (fun _ => Nat.succ_pos _) fun n xs j hj => ?_
    match n, j, hj with
    | n + 1, .arr _, _ => exact Nat.succ_pos _
  tables := by
    refine lenientAt_zero (fun _ _ hj => hj) (fun _ => Nat.succ_pos _) fun n xs j hj => ?_
    match n, j, hj with
    | n + 1, .obj _, _ => exact Nat.succ_pos _

theorem lawsAt (h : LenientValues depth) (v : Value) : LawsAt v depth := by
  cases v with
  | boolean b =>
    exact lawsAt_tagged .boolean "Boolean" (faithful_bool.lenient (fun _ => rfl) depth) (fun _ => rfl)
      rfl (fun _ _ => Iff.rfl) (fun _ => trivial) fun _ => trivial
  | int n =>
    exact lawsAt_tagged .int "Int" (faithful_int64.lenient (fun _ => rfl) depth) (fun _ => rfl)
      rfl (fun _ _ => Iff.rfl) (fun _ => trivial) fun _ => trivial
  | float x =>
    have hdepth (x : Binary64) : (Json.ofBinary64 x).depth = 0 := by
      unfold Json.ofBinary64
      split <;> rfl
    exact lawsAt_tagged .float "Float" (faithful_float.lenient hdepth depth) (fun _ => rfl)
      rfl (fun _ _ => Iff.rfl) (fun _ => trivial) id
  | char c =>
    exact lawsAt_tagged .char "Char" (faithful_char.lenient (fun _ => rfl) depth) (fun _ => rfl)
      rfl (fun _ _ => Iff.rfl) (fun _ => trivial) fun _ => trivial
  | string s =>
    exact lawsAt_tagged .string "String" (lenient_text depth) (fun _ => rfl)
      rfl (fun _ _ => Iff.rfl) (fun _ => trivial) fun _ => trivial
  | classRef t =>
    have hdecode (body : Json) : value.decode (depth + 1) (.obj [("Class", body)]) =
        (TypeName.decode depth body).map .classRef :=
      (Option.map_map _ _ _).symm
    exact lawsAt_tagged .classRef "Class" (faithful_typeName.lenient (fun _ => rfl) depth) hdecode
      rfl (fun _ _ => Iff.rfl) (fun _ => trivial) fun _ => trivial
  | enumConstant typeName constant =>
    exact lawsAt_tagged (b := (typeName, constant)) (fun c : String × String => .enumConstant c.1 c.2)
      "Enum" (lenient_constant depth) decodeConstant_eq rfl (fun _ _ => Iff.rfl)
      (fun _ => ⟨trivial, trivial, trivial⟩) fun _ => ⟨trivial, trivial, trivial⟩
  | nested a =>
    exact lawsAt_tagged .nested "Annotation" h.records (fun _ => rfl) rfl (fun _ _ => Iff.rfl)
      valid_nested_iff.1 finite_nested_iff.1
  | array items =>
    have hdecode (body : Json) : value.decode (depth + 1) (.obj [("Array", body)]) =
        (value.list.decode depth body).map .array :=
      congrArg (Option.map Value.array) (congrFun (congrFun (Value.decodeItems_eq .text) depth) body)
    exact lawsAt_tagged .array "Array" h.items hdecode (FaithfulValues.toJson_array items)
      (fun _ _ => Iff.rfl) Value.holds_array_iff.1 Value.holds_array_iff.1

theorem values_succ (h : LenientValues depth) : value.LenientAt Value.Written (depth + 1) where
  reads {v _} := (h.lawsAt v).reads
  self {v} := (h.lawsAt v).self
  fits {v j n} hj hdepth := by
    cases n with
    | zero => exact hj.elim
    | succ n => exact (h.lawsAt v).fits hj hdepth

theorem succ (h : LenientValues depth) : LenientValues (depth + 1) where
  values := h.values_succ
  records := record_written_eq ▸
    isRecord_record.lenientAt_succ (Nat.le_refl 1) ⟨lenient_text depth, h.tables, trivial⟩
  items := Value.writtenItems_eq ▸ h.values.list
  tables := Value.writtenTable_eq ▸ h.values.entries

end LenientValues

theorem lenientValues : (depth : Nat) → LenientValues depth
  | 0 => .zero
  | depth + 1 => (lenientValues depth).succ

theorem lenient_value : value.Lenient Value.Written := fun depth => (lenientValues depth).values

theorem lenient_record : record.Lenient AnnotationRecord.Written := fun depth =>
  (lenientValues depth).records

/-! ## Methods and classes -/

theorem lenient_optionalValue (depth : Nat) :
    value.nullable.LenientAt (Writing.nullable Value.Written) depth :=
  (lenient_value depth).nullable (by cases depth <;> rfl)

/-- The ways of writing the fields of methods. -/
def methodWritings (depth : Nat) : methodRow.Writings :=
  (Writing.exact text depth, Writing.list (Writing.exact typeName) depth,
    Writing.list AnnotationRecord.Written depth, Writing.nullable Value.Written depth, ())

/-- The ways of writing methods. -/
def methodWriting : Writing CompiledMethod :=
  methodRow.writing methodWritings fun m =>
    (m.name, m.parameterTypes, m.annotations, m.defaultValue, ())

theorem lenient_method : method.Lenient methodWriting
  | 0 => isRecord_method.lenientAt_zero methodWritings
  | depth + 1 => isRecord_method.lenientAt_succ (Nat.le_refl 1)
    ⟨lenient_text depth, (faithful_typeName.lenient fun _ => rfl).list depth,
      lenient_record.list depth, lenient_optionalValue depth, trivial⟩

/-- The ways of writing the fields of classes. -/
def classWritings (depth : Nat) : classRow.Writings :=
  (Writing.exact text depth, Writing.exact kind depth, Writing.list AnnotationRecord.Written depth,
    Writing.list methodWriting depth, ())

/-- The ways of writing classes. -/
def classWriting : Writing CompiledClass :=
  classRow.writing classWritings fun c => (c.name, c.kind, c.annotations, c.methods, ())

theorem lenient_compiledClass : compiledClass.Lenient classWriting
  | 0 => isRecord_compiledClass.lenientAt_zero classWritings
  | depth + 1 => isRecord_compiledClass.lenientAt_succ (Nat.le_refl 2)
    ⟨lenient_text depth, faithful_kind.lenient (fun k => by cases k <;> rfl) depth,
      lenient_record.list depth, lenient_method.list depth, trivial⟩

end Form

end AnnotationLookup
