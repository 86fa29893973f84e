import AnnotationLookup.CompiledClass
import AnnotationLookup.Form.Value
import AnnotationLookup.TypeReference

/-!
# Documents of compiled classes

Encoding and decoding of type names, references, compiled methods and compiled classes.
-/

namespace AnnotationLookup

/-- The document of a type name is its text. -/
def TypeName.toJson (t : TypeName) : Json := .str t.text

/-- Reads a type name; any text is one. -/
def TypeName.decode : Decoder TypeName := fun depth j => (Decoder.text depth j).map (⟨·⟩)

/-- The document of a factory is its number. -/
def Factory.toJson (f : Factory) : Json := .int f.number.toNat

/-- Reads a factory, whose number has 32 bits. -/
def Factory.decode : Decoder Factory := fun depth j => (Decoder.uint32 depth j).map (⟨·⟩)

/-- The document of a reference. -/
def TypeReference.toJson (r : TypeReference) : Json :=
  .obj [("qualified_name", .str r.name), ("factory", r.factory.toJson)]

/-- Reads a reference; both of its fields have to be there. -/
def TypeReference.decode : Decoder TypeReference
  | 0, _ => none
  | depth + 1, j => do
    let [name, factory] ← j.fields? ["qualified_name", "factory"] 2 | none
    some ⟨← Decoder.text.required depth name, ← Factory.decode.required depth factory⟩

/-! ## Classes -/

namespace ClassKind

/-- The names of the kinds in documents. -/
def names : List (String × ClassKind) :=
  [("Class", ordinary), ("Interface", interface), ("Annotation", annotationType),
    ("Enum", enumeration)]

/-- The document of a kind is its name. -/
def toJson : ClassKind → Json
  | ordinary => .str "Class"
  | interface => .str "Interface"
  | annotationType => .str "Annotation"
  | enumeration => .str "Enum"

/-- Reads a kind by its name. -/
def decode : Decoder ClassKind := Decoder.oneOf names

end ClassKind

/-- A value or nothing. -/
def optionalValueToJson : Option Value → Json
  | none => .null
  | some v => v.toJson

/-- The document of the records on a declaration. -/
def recordsToJson (records : List AnnotationRecord) : Json :=
  .arr (records.map AnnotationRecord.toJson)

namespace CompiledMethod

/-- The document of a method. -/
def toJson (m : CompiledMethod) : Json :=
  .obj [("name", .str m.name), ("parameter_types", .arr (m.parameterTypes.map TypeName.toJson)),
    ("annotations", recordsToJson m.annotations),
    ("default_value", optionalValueToJson m.defaultValue)]

/-- Reads a method. Nothing but its name has to be there. -/
def decode (medium : Medium) : Decoder CompiledMethod
  | 0, _ => none
  | depth + 1, j => do
    let [name, parameterTypes, annotations, defaultValue] ←
      j.fields? ["name", "parameter_types", "annotations", "default_value"] 1 | none
    some {
      name := ← Decoder.text.required depth name
      parameterTypes := ← (Decoder.list TypeName.decode).withDefault [] depth parameterTypes
      annotations := ←
        (Decoder.list (AnnotationRecord.decode medium)).withDefault [] depth annotations
      defaultValue := ←
        (Decoder.nullable (Value.decode medium)).withDefault none depth defaultValue }

end CompiledMethod

namespace CompiledClass

/-- The document of a class. -/
def toJson (c : CompiledClass) : Json :=
  .obj [("name", .str c.name), ("kind", c.kind.toJson),
    ("annotations", recordsToJson c.annotations),
    ("methods", .arr (c.methods.map CompiledMethod.toJson))]

/-- Reads a class. Its name and its kind have to be there. -/
def decode (medium : Medium) : Decoder CompiledClass
  | 0, _ => none
  | depth + 1, j => do
    let [name, kind, annotations, methods] ←
      j.fields? ["name", "kind", "annotations", "methods"] 2 | none
    some {
      name := ← Decoder.text.required depth name
      kind := ← ClassKind.decode.required depth kind
      annotations := ←
        (Decoder.list (AnnotationRecord.decode medium)).withDefault [] depth annotations
      methods := ← (Decoder.list (CompiledMethod.decode medium)).withDefault [] depth methods }

end CompiledClass

end AnnotationLookup
