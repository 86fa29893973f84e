import AnnotationLookup.Proofs.Form.Row

/-!
# Forms of annotation values

* `Value.Holds`, `AnnotationRecord.Holds`: what holds of all numbers and all tables in a value;
* `Form.value`, `Form.record`: the forms of values and of records;
* `Form.writable_tagged`, `Form.tagged_iff`, `Form.holds_tagged`: the laws for an object with one
  member, which is named for what its body is;
* `Form.FaithfulValues.succ`: with one container more, values are what records and arrays of values
  made of them;
* **`Form.faithful_value`**, **`Form.faithful_record`**.
-/

namespace AnnotationLookup

/-! ## Numbers and tables of a value -/

mutual

/-- The property `number` holds of all numbers in a value, and `table` of the values of all
annotations in it. -/
def Value.Holds (number : Binary64 → Prop) (table : Entries Value → Prop) (v : Value) : Prop :=
  match v with
  | .float x => number x
  | .nested a => a.Holds number table
  | .array items => Value.HoldsOfItems number table items
  | .boolean _ => True
  | .int _ => True
  | .char _ => True
  | .string _ => True
  | .classRef _ => True
  | .enumConstant _ _ => True
termination_by structural v

/-- The same of a record: of its table, and of the values in it. -/
def AnnotationRecord.Holds (number : Binary64 → Prop) (table : Entries Value → Prop)
    (a : AnnotationRecord) : Prop :=
  match a with
  | ⟨_, values⟩ => table values ∧ Value.HoldsOfEntries number table values
termination_by structural a

/-- The same of the items of an array. -/
def Value.HoldsOfItems (number : Binary64 → Prop) (table : Entries Value → Prop)
    (items : List Value) : Prop :=
  match items with
  | [] => True
  | v :: items => v.Holds number table ∧ Value.HoldsOfItems number table items
termination_by structural items

/-- The same of the values in a table. -/
def Value.HoldsOfEntries (number : Binary64 → Prop) (table : Entries Value → Prop)
    (values : List (String × Value)) : Prop :=
  match values with
  | [] => True
  | (_, v) :: values => v.Holds number table ∧ Value.HoldsOfEntries number table values
termination_by structural values

end

/-- Every annotation in the value has its values in ascending order of names. -/
def Value.Valid (v : Value) : Prop := v.Holds (fun _ => True) Entries.Sorted

/-- Every number in the value is finite. -/
def Value.Finite (v : Value) : Prop := v.Holds (fun x => x.isFinite) fun _ => True

section Holds

variable {number : Binary64 → Prop} {table : Entries Value → Prop}

theorem Value.holds_array_iff {items : List Value} :
    (Value.array items).Holds number table ↔ ∀ v ∈ items, v.Holds number table := by
  have hitems : Value.HoldsOfItems number table items ↔ ∀ v ∈ items, v.Holds number table := by
    induction items with
    | nil => simp [Value.HoldsOfItems]
    | cons v items ih => rw [Value.HoldsOfItems, ih, List.forall_mem_cons]
  exact hitems

theorem Value.holds_nested_iff {a : AnnotationRecord} :
    (Value.nested a).Holds number table ↔ table a.values ∧ ∀ p ∈ a.values, p.2.Holds number table := by
  have hentries (values : Entries Value) :
      Value.HoldsOfEntries number table values ↔ ∀ p ∈ values, p.2.Holds number table := by
    induction values with
    | nil => simp [Value.HoldsOfEntries]
    | cons p values ih => rw [Value.HoldsOfEntries, ih, List.forall_mem_cons]
  cases a with
  | mk typeName values => exact and_congr_right fun _ => hentries values

end Holds

theorem Value.itemsToJson_eq (items : List Value) :
    Value.itemsToJson items = items.map Value.toJson := by
  induction items with
  | nil => rfl
  | cons v items ih => rw [Value.itemsToJson, ih, List.map_cons]

theorem Value.entriesToJson_eq (values : Entries Value) :
    Value.entriesToJson values = values.map fun p => (p.1, p.2.toJson) := by
  induction values with
  | nil => rfl
  | cons p values ih => rw [Value.entriesToJson, ih, List.map_cons]

theorem Value.decodeItems_eq (medium : Medium) :
    Value.decodeItems medium = Decoder.list (Value.decode medium) := by
  funext depth j
  cases depth <;> cases j <;> rfl

theorem Value.decodeEntries_eq (medium : Medium) :
    Value.decodeEntries medium = Decoder.entries (Value.decode medium) := by
  funext depth j
  cases depth <;> cases j <;> rfl

namespace Form

/-! ## Payloads -/

/-- The form of truth values. -/
def bool : Form Bool where
  toJson := .bool
  decode := Decoder.bool

/-- The form of integers of 64 bits. -/
def int64 : Form Int64 where
  toJson n := .int n.toInt
  decode := Decoder.int64

/-- The form of characters, as texts. -/
def char : Form Char where
  toJson c := .str (String.singleton c)
  decode := Decoder.char

/-- Numbers that are not finite have no text of their own. -/
def float : Form Binary64 where
  toJson := .ofBinary64
  decode := Decoder.float
  Finite x := x.isFinite

theorem faithful_bool : bool.Faithful :=
  faithful_of_leaf (fun _ _ => trivial) (fun _ => rfl) (fun _ => trivial) (fun _ _ _ => rfl)
    fun _ _ _ _ => trivial

theorem faithful_int64 : int64.Faithful := by
  refine faithful_of_leaf (fun n _ => Json.intFits_toInt n) (fun n => rfl) (fun _ => trivial)
    (fun depth n _ => ?_) fun _ _ _ _ => trivial
  have hread : Decoder.intIn Int64.minValue.toInt Int64.maxValue.toInt depth (.int n.toInt) =
      some n.toInt :=
    Option.filter_eq_some_iff.2 ⟨rfl, decide_eq_true ⟨n.minValue_le_toInt, n.toInt_le⟩⟩
  simp only [int64, Decoder.int64, hread, Option.map_some, Int64.ofInt_toInt]

theorem faithful_char : char.Faithful := by
  refine faithful_of_leaf (fun n _ => trivial) (fun n => rfl) (fun _ => trivial) (fun depth c _ => ?_)
    fun _ _ _ _ => trivial
  simp [char, Decoder.char]

theorem faithful_float : float.Faithful := fun depth => {
  writable := fun {x} _ _ => by
    by_cases h : x.isFinite
    · have hjson : float.toJson x = .float x := if_pos h
      rw [hjson]
      exact h
    · have hjson : float.toJson x = .null := if_neg h
      rw [hjson]
      exact trivial
  decode_iff := fun {x y} _ => by
    by_cases h : x.isFinite
    · have hjson : float.toJson x = .float x := if_pos h
      have hread : float.decode depth (.float x) = some x := rfl
      rw [hjson, hread, Option.some.injEq]
      exact ⟨fun heq => ⟨heq.symm, h, Nat.zero_le _⟩, fun heq => heq.1.symm⟩
    · have hjson : float.toJson x = .null := if_neg h
      have hread : float.decode depth .null = none := rfl
      rw [hjson, hread]
      exact ⟨fun heq => (nomatch heq), fun heq => absurd heq.2.1 h⟩
  holds := fun {j x} hj hx => by
    refine ⟨trivial, ?_⟩
    cases j with
    | float y =>
      cases hx
      exact hj
    | int n =>
      cases hx
      have hfits : Json.IntFits n := hj
      exact Binary64.isFinite_ofInt hfits.natAbs_lt
    | _ => cases hx }

/-! ## Values and records -/

/-- The form of annotation values. -/
def value : Form Value where
  toJson := Value.toJson
  decode := Value.decode .text
  Valid := Value.Valid
  Finite := Value.Finite

/-- The fields of a record. -/
def recordRow : Row (String × Entries Value × Unit) :=
  .cons "annotation_type" text none <| .cons "values" value.entries (some []) .nil

/-- The form of annotation records. -/
def record : Form AnnotationRecord :=
  ofRow recordRow (fun a => (a.typeName, a.values, ())) AnnotationRecord.toJson
    (AnnotationRecord.decode .text)

theorem isRecord_record : IsRecord recordRow (fun a : AnnotationRecord => (a.typeName, a.values, ()))
    (fun t => ⟨t.1, t.2.1⟩) 1 AnnotationRecord.toJson (AnnotationRecord.decode .text) where
  nodup := by decide
  make_view a := by cases a; rfl
  view_make t := rfl
  toJson_eq a := by
    cases a
    rw [AnnotationRecord.toJson, Value.entriesToJson_eq]
    rfl
  decode_zero j := rfl
  decode_succ depth j := by
    rw [AnnotationRecord.decode]
    refine bind_fields?_congr fun fields hlength => ?_
    match fields, hlength with
    | [typeName, none], _ => rfl
    | [typeName, some values], _ =>
      simp only [Value.decodeEntries_eq, Option.map_eq_bind]
      rfl

theorem valid_nested_iff {a : AnnotationRecord} : (Value.nested a).Valid ↔ record.Valid a := by
  have hrecord : record.Valid a ↔ Entries.Sorted a.values ∧ ∀ p ∈ a.values, p.2.Valid := by
    simp [record, ofRow, recordRow, Row.Valid, text, entries, value]
  rw [hrecord]
  exact Value.holds_nested_iff

theorem finite_nested_iff {a : AnnotationRecord} : (Value.nested a).Finite ↔ record.Finite a := by
  have hrecord : record.Finite a ↔ ∀ p ∈ a.values, p.2.Finite := by
    simp [record, ofRow, recordRow, Row.Finite, text, entries, value]
  rw [hrecord]
  exact Value.holds_nested_iff.trans (by simp [Value.Finite])

theorem writable_tagged {β : Type} {G : Form β} (h : G.FaithfulAt depth) {name : String} {b : β}
    (hb : G.Valid b) (hdepth : (Json.obj [(name, G.toJson b)]).depth ≤ depth + 1) :
    (Json.obj [(name, G.toJson b)]).Leaves Json.Writable := by
  rw [depth_obj_le, List.forall_mem_singleton] at hdepth
  rw [Json.leaves_obj, List.forall_mem_singleton]
  exact h.writable hb hdepth

/-- The only member of an object is read as the form of its body reads it. -/
theorem tagged_iff {β : Type} {G : Form β} (h : G.FaithfulAt depth) {make : β → α}
    {name : String} {b : β} {x : α} {finite : Prop} (hb : G.Valid b) (hfinite : finite ↔ G.Finite b) :
    (G.decode depth (G.toJson b)).map make = some x ↔
      x = make b ∧ finite ∧ (Json.obj [(name, G.toJson b)]).depth ≤ depth + 1 := by
  rw [Option.map_eq_some_iff, depth_obj_le, List.forall_mem_singleton, hfinite]
  constructor
  · rintro ⟨c, hc, rfl⟩
    obtain ⟨rfl, hok⟩ := (h.decode_iff hb).1 hc
    exact ⟨rfl, hok⟩
  · rintro ⟨rfl, hok⟩
    exact ⟨b, (h.decode_iff hb).2 ⟨rfl, hok⟩, rfl⟩

theorem holds_tagged {β : Type} {G : Form β} (h : G.FaithfulAt depth) {make : β → α} {body : Json}
    {x : α} {valid finite : α → Prop} (hbody : body.Leaves Json.Readable)
    (hx : (G.decode depth body).map make = some x)
    (hmake : ∀ {b}, G.Valid b → G.Finite b → valid (make b) ∧ finite (make b)) :
    valid x ∧ finite x := by
  obtain ⟨b, hb, rfl⟩ := Option.map_eq_some_iff.1 hx
  obtain ⟨hvalid, hfinite⟩ := h.holds hbody hb
  exact hmake hvalid hfinite

/-- What values, records and the collections of values are made of, where so many containers may
still be opened. -/
structure FaithfulValues (depth : Nat) : Prop where
  values : value.FaithfulAt depth
  records : record.FaithfulAt depth
  items : value.list.FaithfulAt depth
  tables : value.entries.FaithfulAt depth

namespace FaithfulValues

theorem toJson_array (items : List Value) :
    value.toJson (.array items) = .obj [("Array", value.list.toJson items)] :=
  congrArg (fun items => Json.obj [("Array", .arr items)]) (Value.itemsToJson_eq items)

theorem decodeItems_toJson (items : List Value) :
    Value.decodeItems .text depth (.arr (Value.itemsToJson items)) =
      value.list.decode depth (value.list.toJson items) := by
  rw [Value.decodeItems_eq, Value.itemsToJson_eq]
  rfl

/-- The names of an enum constant take one container more. -/
theorem decode_enumConstant_iff {typeName constant : String} {v : Value} :
    value.decode (depth + 1) (value.toJson (.enumConstant typeName constant)) = some v ↔
      v = .enumConstant typeName constant ∧ 2 ≤ depth + 1 := by
  cases depth with
  | zero => exact ⟨fun h => (nomatch h), fun h => absurd h.2 (by decide)⟩
  | succ depth =>
    have hread : value.decode (depth + 2) (value.toJson (.enumConstant typeName constant)) =
        some (.enumConstant typeName constant) := rfl
    rw [hread, Option.some.injEq]
    exact ⟨fun h => ⟨h.symm, by omega⟩, fun h => h.1.symm⟩

theorem exists_of_decodeConstant {j : Json} {v : Value} (h : decodeConstant .text depth j = some v) :
    ∃ typeName constant, v = .enumConstant typeName constant := by
  cases depth with
  | zero => cases h
  | succ depth =>
    simp only [decodeConstant, reduceCtorEq, false_and, if_false, Option.bind_eq_bind,
      Option.bind_eq_some_iff] at h
    obtain ⟨fields, -, h⟩ := h
    split at h
    · simp only [Option.bind_eq_some_iff] at h
      obtain ⟨typeName, -, constant, -, ⟨⟩⟩ := h
      exact ⟨typeName, constant, rfl⟩
    · cases h

theorem values_succ (h : FaithfulValues depth) : value.FaithfulAt (depth + 1) where
  writable {v} hv hdepth := by
    cases v with
    | boolean b => exact writable_tagged (faithful_bool depth) trivial hdepth
    | int n => exact writable_tagged (faithful_int64 depth) trivial hdepth
    | float x => exact writable_tagged (faithful_float depth) trivial hdepth
    | char c => exact writable_tagged (faithful_char depth) trivial hdepth
    | string s => exact writable_tagged (faithful_text depth) trivial hdepth
    | classRef t => exact writable_tagged (faithful_typeName depth) trivial hdepth
    | enumConstant typeName constant => exact ⟨⟨trivial, trivial, trivial⟩, trivial⟩
    | nested a => exact writable_tagged h.records (valid_nested_iff.1 hv) hdepth
    | array items =>
      rw [toJson_array] at hdepth ⊢
      exact writable_tagged h.items (Value.holds_array_iff.1 hv) hdepth
  decode_iff {v y} hv := by
    cases v with
    | boolean b => exact tagged_iff (faithful_bool depth) trivial Iff.rfl
    | int n => exact tagged_iff (faithful_int64 depth) trivial Iff.rfl
    | float x => exact tagged_iff (faithful_float depth) trivial Iff.rfl
    | char c => exact tagged_iff (faithful_char depth) trivial Iff.rfl
    | string s => exact tagged_iff (faithful_text depth) trivial Iff.rfl
    | classRef t => exact tagged_iff (faithful_typeName depth) trivial Iff.rfl
    | enumConstant typeName constant =>
      rw [decode_enumConstant_iff]
      exact and_congr_right fun _ => (true_and _).symm ▸ Iff.rfl
    | nested a => exact tagged_iff h.records (valid_nested_iff.1 hv) finite_nested_iff
    | array items =>
      have hread : value.decode (depth + 1) (value.toJson (.array items)) =
          (value.list.decode depth (value.list.toJson items)).map .array :=
        congrArg (Option.map Value.array) (decodeItems_toJson items)
      rw [hread, toJson_array]
      exact tagged_iff h.items (Value.holds_array_iff.1 hv) Value.holds_array_iff
  holds {j v} hj hv := by
    cases j with
    | obj members =>
      match members, hj, hv with
      | [], _, hv => cases hv
      | _ :: _ :: _, _, hv => cases hv
      | [(kind, body)], hj, hv =>
        have hbody : body.Leaves Json.Readable := hj.1
        simp only [value, Value.decode] at hv
        split at hv
        · exact holds_tagged (faithful_bool depth) hbody hv fun _ _ => ⟨trivial, trivial⟩
        · exact holds_tagged (faithful_int64 depth) hbody hv fun _ _ => ⟨trivial, trivial⟩
        · exact holds_tagged (faithful_float depth) hbody hv fun _ hfinite => ⟨trivial, hfinite⟩
        · exact holds_tagged (faithful_char depth) hbody hv fun _ _ => ⟨trivial, trivial⟩
        · exact holds_tagged (faithful_text depth) hbody hv fun _ _ => ⟨trivial, trivial⟩
        · exact holds_tagged (faithful_text depth) hbody hv fun _ _ => ⟨trivial, trivial⟩
        · obtain ⟨typeName, constant, rfl⟩ := exists_of_decodeConstant hv
          exact ⟨trivial, trivial⟩
        · exact holds_tagged h.records hbody hv fun hvalid hfinite =>
            ⟨valid_nested_iff.2 hvalid, finite_nested_iff.2 hfinite⟩
        · rw [Value.decodeItems_eq] at hv
          exact holds_tagged h.items hbody hv fun hvalid hfinite =>
            ⟨Value.holds_array_iff.2 hvalid, Value.holds_array_iff.2 hfinite⟩
        · cases hv
    | _ => cases hv

theorem row (h : FaithfulValues depth) : recordRow.FaithfulAt depth :=
  .required (faithful_text depth) <|
    .optional h.tables ⟨List.Pairwise.nil, fun _ hp => (nomatch hp)⟩ (fun _ hp => (nomatch hp)) trivial

theorem succ (h : FaithfulValues depth) : FaithfulValues (depth + 1) where
  values := h.values_succ
  records := isRecord_record.faithfulAt_succ h.row
  items := h.values.list
  tables := h.values.entries

end FaithfulValues

theorem faithfulValues (depth : Nat) : FaithfulValues depth := by
  induction depth with
  | zero =>
    refine ⟨faithfulAt_zero (fun _ => rfl) fun v => ?_, isRecord_record.faithfulAt_zero,
      faithfulAt_zero (fun _ => rfl) fun _ => Nat.succ_pos _,
      faithfulAt_zero (fun _ => rfl) fun _ => Nat.succ_pos _⟩
    cases v <;> exact Nat.succ_pos _
  | succ depth ih => exact ih.succ

theorem faithful_value : value.Faithful := fun depth => (faithfulValues depth).values

theorem faithful_record : record.Faithful := fun depth => (faithfulValues depth).records

end Form

end AnnotationLookup
