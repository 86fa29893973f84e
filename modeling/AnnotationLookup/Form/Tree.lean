import AnnotationLookup.Form.CompiledClass
import AnnotationLookup.Tree.Basic

/-!
# Documents of declaration trees

* ids, sites, and the four sorts of nodes;
* arenas, slot by slot, so that free slots are kept;
* `Tree.toJson`, `Tree.decode`. The identity of a tree is no part of its document: the decoded tree
  gets the one it is given.
-/

namespace AnnotationLookup

/-! ## Ids and sites -/

namespace NodeId

variable {sort : NodeSort}

/-- The document of an id. Ids have no generations. -/
def toJson (id : NodeId sort) : Json := .obj [("index", .int id.index), ("generation", .null)]

/-- Reads an id, the generation of which has to be `null`. -/
def decode : Decoder (NodeId sort)
  | 0, _ => none
  | depth + 1, j => do
    let [index, some .null] ← j.fields? ["index", "generation"] 2 | none
    some ⟨← Decoder.index.required depth index⟩

end NodeId

/-- The document of ids, in order. -/
def idsToJson {sort : NodeSort} (ids : List (NodeId sort)) : Json := .arr (ids.map NodeId.toJson)

namespace Site

/-- The document of a site, under the name of its kind. -/
def toJson : Site → Json
  | .type id => .obj [("Type", id.toJson)]
  | .method id => .obj [("Method", id.toJson)]
  | .field id => .obj [("Field", id.toJson)]
  | .parameter id position => .obj [("Parameter", .arr [id.toJson, .int position])]

/-- Reads a site by the name of its kind. -/
def decode : Decoder Site
  | depth + 1, .obj [(kind, body)] =>
    match kind, depth, body with
    | "Type", _, _ => (NodeId.decode depth body).map .type
    | "Method", _, _ => (NodeId.decode depth body).map .method
    | "Field", _, _ => (NodeId.decode depth body).map .field
    | "Parameter", depth + 1, .arr [id, position] => do
      some (.parameter (← NodeId.decode depth id) (← Decoder.index depth position))
    | _, _, _ => none
  | _, _ => none

end Site

/-! ## Nodes -/

namespace Origin

/-- The names of the origins in documents. -/
def names : List (String × Origin) := [("Source", source), ("Shadow", shadow)]

/-- The document of an origin is its name. -/
def toJson : Origin → Json
  | source => .str "Source"
  | shadow => .str "Shadow"

/-- Reads an origin by its name. -/
def decode : Decoder Origin := Decoder.oneOf names

end Origin

namespace TypeNode

/-- The document of a type. -/
def toJson (d : TypeNode) : Json :=
  .obj [("qualified_name", .str d.name), ("kind", d.kind.toJson), ("origin", d.origin.toJson),
    ("factory", d.factory.toJson), ("methods", idsToJson d.methods),
    ("fields", idsToJson d.fields), ("annotations", idsToJson d.annotations)]

/-- Reads a type; all of its fields have to be there. -/
def decode : Decoder TypeNode
  | 0, _ => none
  | depth + 1, j => do
    let [name, kind, origin, factory, methods, fields, annotations] ←
      j.fields? ["qualified_name", "kind", "origin", "factory", "methods", "fields",
        "annotations"] 7 | none
    some {
      name := ← Decoder.text.required depth name
      kind := ← ClassKind.decode.required depth kind
      origin := ← Origin.decode.required depth origin
      factory := ← Factory.decode.required depth factory
      methods := ← (Decoder.list NodeId.decode).required depth methods
      fields := ← (Decoder.list NodeId.decode).required depth fields
      annotations := ← (Decoder.list NodeId.decode).required depth annotations }

end TypeNode

namespace ParameterNode

/-- The document of a parameter. -/
def toJson (p : ParameterNode) : Json :=
  .obj [("name", .str p.name), ("typ", p.type.toJson), ("annotations", idsToJson p.annotations)]

/-- Reads a parameter; all of its fields have to be there. -/
def decode : Decoder ParameterNode
  | 0, _ => none
  | depth + 1, j => do
    let [name, type, annotations] ← j.fields? ["name", "typ", "annotations"] 3 | none
    some {
      name := ← Decoder.text.required depth name
      type := ← TypeReference.decode.required depth type
      annotations := ← (Decoder.list NodeId.decode).required depth annotations }

end ParameterNode

namespace MethodNode

/-- The document of a method. -/
def toJson (m : MethodNode) : Json :=
  .obj [("name", .str m.name), ("declaring_type", m.owner.toJson),
    ("parameters", .arr (m.parameters.map ParameterNode.toJson)),
    ("default_value", optionalValueToJson m.defaultValue),
    ("annotations", idsToJson m.annotations)]

/-- Only as an object may a method leave out its default. -/
def decode (medium : Medium) : Decoder MethodNode
  | 0, _ => none
  | depth + 1, j => do
    let [name, owner, parameters, defaultValue, annotations] ←
      j.fields? ["name", "declaring_type", "parameters", "default_value", "annotations"] 5 | none
    some {
      name := ← Decoder.text.required depth name
      owner := ← NodeId.decode.required depth owner
      parameters := ← (Decoder.list ParameterNode.decode).required depth parameters
      defaultValue := ←
        (Decoder.nullable (Value.decode medium)).withDefault none depth defaultValue
      annotations := ← (Decoder.list NodeId.decode).required depth annotations }

end MethodNode

namespace FieldNode

/-- The document of a field. -/
def toJson (f : FieldNode) : Json :=
  .obj [("name", .str f.name), ("declaring_type", f.owner.toJson), ("typ", f.type.toJson),
    ("annotations", idsToJson f.annotations)]

/-- Reads a field; all of what it consists of has to be there. -/
def decode : Decoder FieldNode
  | 0, _ => none
  | depth + 1, j => do
    let [name, owner, type, annotations] ←
      j.fields? ["name", "declaring_type", "typ", "annotations"] 4 | none
    some {
      name := ← Decoder.text.required depth name
      owner := ← NodeId.decode.required depth owner
      type := ← TypeReference.decode.required depth type
      annotations := ← (Decoder.list NodeId.decode).required depth annotations }

end FieldNode

namespace UseNode

/-- The document of the source values, `null` if there are none. -/
def valuesToJson : Option (Entries Value) → Json
  | none => .null
  | some values => .obj (Value.entriesToJson values)

/-- The document of a use. -/
def toJson (u : UseNode) : Json :=
  .obj [("annotation_type", u.annotationType.toJson), ("parent", u.site.toJson),
    ("source_values", valuesToJson u.sourceValues)]

/-- Only as an object may a use leave out its values. -/
def decode (medium : Medium) : Decoder UseNode
  | 0, _ => none
  | depth + 1, j => do
    let [annotationType, site, sourceValues] ←
      j.fields? ["annotation_type", "parent", "source_values"] 3 | none
    some {
      annotationType := ← TypeReference.decode.required depth annotationType
      site := ← Site.decode.required depth site
      sourceValues := ←
        (Decoder.nullable (Value.decodeEntries medium)).withDefault none depth sourceValues }

end UseNode

/-! ## Arenas -/

namespace Arena

variable {α : Type}

/-- The document of a slot: `null` if it is free. What it holds comes after a place for a
generation. -/
def slotToJson (f : α → Json) : Option α → Json
  | none => .null
  | some a => .arr [.null, f a]

/-- The document of an arena, slot by slot. -/
def toJson (f : α → Json) (a : Arena α) : Json := .arr (a.slots.map (slotToJson f))

/-- Reads what an occupied slot holds. -/
def decodeOccupied (d : Decoder α) : Decoder α
  | depth + 1, .arr [.null, j] => d depth j
  | _, _ => none

/-- Reads an arena, with exactly the slots that the document has. -/
def decode (d : Decoder α) : Decoder (Arena α) := fun depth j =>
  (Decoder.list (Decoder.nullable (decodeOccupied d)) depth j).map (⟨·⟩)

end Arena

namespace NamedArena

variable {α : Type}

/-- The document of an index of names. -/
def indexToJson (index : Entries Nat) : Json :=
  .obj (index.map fun (name, i) => (name, (NodeId.mk i : TypeId).toJson))

/-- The document of an arena with its index. -/
def toJson (f : α → Json) (a : NamedArena α) : Json :=
  .obj [("values", a.values.toJson f), ("by_name", indexToJson a.byName)]

/-- Reads an index of names, wherever its names lead. -/
def decodeIndex : Decoder (Entries Nat) :=
  Decoder.entries fun depth j => (NodeId.decode depth j : Option TypeId).map (·.index)

/-- Reads an arena with its index. -/
def decode (d : Decoder α) : Decoder (NamedArena α)
  | 0, _ => none
  | depth + 1, j => do
    let [values, byName] ← j.fields? ["values", "by_name"] 2 | none
    some ⟨← (Arena.decode d).required depth values, ← decodeIndex.required depth byName⟩

end NamedArena

/-! ## Trees -/

namespace Tree

/-- The document of a tree, which says nothing of its identity. -/
def toJson (t : Tree) : Json :=
  .obj [("types", t.types.toJson TypeNode.toJson), ("methods", t.methods.toJson MethodNode.toJson),
    ("fields", t.fields.toJson FieldNode.toJson),
    ("annotation_uses", t.uses.toJson UseNode.toJson)]

/-- Reads a tree, under a given identity. -/
def decode (medium : Medium) (id : TreeId) : Decoder Tree
  | 0, _ => none
  | depth + 1, j => do
    let [types, methods, fields, uses] ←
      j.fields? ["types", "methods", "fields", "annotation_uses"] 4 | none
    some {
      id
      types := ← (NamedArena.decode TypeNode.decode).required depth types
      methods := ← (Arena.decode (MethodNode.decode medium)).required depth methods
      fields := ← (Arena.decode FieldNode.decode).required depth fields
      uses := ← (Arena.decode (UseNode.decode medium)).required depth uses }

/-- The tree that a document denotes. -/
def ofJson? (id : TreeId) (document : Json) : Option Tree :=
  (decode .embedded id).ofDocument? document

end Tree

end AnnotationLookup
