import AnnotationLookup.Form.Decoder
import AnnotationLookup.Value.Basic

/-!
# Documents of annotation values

* `Value.toJson`, `AnnotationRecord.toJson`;
* `Value.decode`, `AnnotationRecord.decode`.

A value is an object of one member, whose name is its kind.
-/

namespace AnnotationLookup

/-! ## Encoding -/

mutual

/-- The document of a value, under the name of its kind. -/
def Value.toJson (v : Value) : Json :=
  match v with
  | .boolean b => .obj [("Boolean", .bool b)]
  | .int n => .obj [("Int", .int n.toInt)]
  | .float x => .obj [("Float", .ofBinary64 x)]
  | .char c => .obj [("Char", .str (String.singleton c))]
  | .string s => .obj [("String", .str s)]
  | .classRef t => .obj [("Class", .str t.text)]
  | .enumConstant typeName constant =>
    .obj [("Enum", .obj [("type_name", .str typeName), ("constant", .str constant)])]
  | .nested a => .obj [("Annotation", a.toJson)]
  | .array items => .obj [("Array", .arr (Value.itemsToJson items))]
termination_by structural v

/-- The document of a record. -/
def AnnotationRecord.toJson (a : AnnotationRecord) : Json :=
  match a with
  | ⟨typeName, values⟩ =>
    .obj [("annotation_type", .str typeName), ("values", .obj (Value.entriesToJson values))]
termination_by structural a

/-- The documents of the items of an array. -/
def Value.itemsToJson (items : List Value) : List Json :=
  match items with
  | [] => []
  | v :: items => v.toJson :: Value.itemsToJson items
termination_by structural items

/-- The documents of values, by the names of their parameters. -/
def Value.entriesToJson (values : List (String × Value)) : List (String × Json) :=
  match values with
  | [] => []
  | (key, v) :: values => (key, v.toJson) :: Value.entriesToJson values
termination_by structural values

end

/-! ## Decoding -/

/-- The type and the name of an enum constant. A document that stands alone may give them by
position. -/
def decodeConstant (medium : Medium) : Decoder Value
  | depth + 1, j => do
    if medium = .embedded ∧ j.asItems?.isSome then none
    let [typeName, constant] ← j.fields? ["type_name", "constant"] 2 | none
    some (.enumConstant (← Decoder.text.required depth typeName)
      (← Decoder.text.required depth constant))
  | 0, _ => none

mutual

/-- Reads a value by the name of its kind. -/
def Value.decode (medium : Medium) : Decoder Value
  | 0, _ => none
  | depth + 1, .obj [(kind, body)] =>
    match kind with
    | "Boolean" => (Decoder.bool depth body).map .boolean
    | "Int" => (Decoder.int64 depth body).map .int
    | "Float" => (Decoder.float depth body).map .float
    | "Char" => (Decoder.char depth body).map .char
    | "String" => (Decoder.text depth body).map .string
    | "Class" => (Decoder.text depth body).map fun s => .classRef ⟨s⟩
    | "Enum" => decodeConstant medium depth body
    | "Annotation" => (AnnotationRecord.decode medium depth body).map .nested
    | "Array" => (Value.decodeItems medium depth body).map .array
    | _ => none
  | _ + 1, _ => none

/-- Reads a record. It has no values where they are left out. -/
def AnnotationRecord.decode (medium : Medium) : Decoder AnnotationRecord
  | 0, _ => none
  | depth + 1, j => do
    let [typeName, values] ← j.fields? ["annotation_type", "values"] 1 | none
    let typeName ← Decoder.text.required depth typeName
    match values with
    | none => some ⟨typeName, []⟩
    | some j => (Value.decodeEntries medium depth j).map (⟨typeName, ·⟩)

/-- The items of an array of values. -/
def Value.decodeItems (medium : Medium) : Decoder (List Value)
  | depth + 1, .arr items => items.mapM (Value.decode medium depth)
  | _, _ => none

/-- Values by the names of their parameters. -/
def Value.decodeEntries (medium : Medium) : Decoder (Entries Value)
  | depth + 1, .obj members =>
    (members.mapM fun (p : String × Json) =>
      (Value.decode medium depth p.2).map (p.1, ·)).map Entries.ofList
  | _, _ => none

end

end AnnotationLookup
