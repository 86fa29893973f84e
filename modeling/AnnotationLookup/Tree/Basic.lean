import AnnotationLookup.Arena
import AnnotationLookup.CompiledClass
import AnnotationLookup.TypeReference

/-!
# Declaration trees

The model of declared types, their members, and the annotations applied to them. Nodes refer to
each other by index; an index means a node only together with the tree that issued it.

* `TypeNode`, `MethodNode`, `FieldNode`, `UseNode`: the four sorts of nodes, and their ids;
* `Site`: what an annotation is applied to;
* `Tree`: the nodes, with the identity of the tree;
* `Tree.factoryOf?`, `Tree.referenceTo?`: the binding of a declaration.
-/

namespace AnnotationLookup

/-- The sorts of nodes that have ids. -/
inductive NodeSort
  | type
  | method
  | field
  | use
deriving DecidableEq, Repr

/-- The index of a node of one sort. -/
structure NodeId (sort : NodeSort) where
  index : Nat
deriving DecidableEq, Inhabited, Repr

/-- The id of a type. -/
abbrev TypeId := NodeId .type

/-- The id of a method. -/
abbrev MethodId := NodeId .method

/-- The id of a field. -/
abbrev FieldId := NodeId .field

/-- The id of an annotation use. -/
abbrev UseId := NodeId .use

/-- Whether a declaration was read from source, or is known from a compiled class only. -/
inductive Origin
  | source
  | shadow
deriving DecidableEq, Inhabited, Repr

/-- A declared type. It lists its members and its annotations in the order in which they came. -/
structure TypeNode where
  name : String
  kind : ClassKind
  origin : Origin
  factory : Factory
  methods : List MethodId := []
  fields : List FieldId := []
  annotations : List UseId := []
deriving DecidableEq, Inhabited

/-- A parameter of a declared method. -/
structure ParameterNode where
  name : String
  type : TypeReference
  annotations : List UseId := []
deriving DecidableEq, Inhabited

/-- A declared method, which names the type that it belongs to. -/
structure MethodNode where
  name : String
  owner : TypeId
  parameters : List ParameterNode
  /-- The default of an element of an annotation type. -/
  defaultValue : Option Value := none
  annotations : List UseId := []
deriving Inhabited

/-- A declared field, which names the type that it belongs to. -/
structure FieldNode where
  name : String
  owner : TypeId
  type : TypeReference
  annotations : List UseId := []
deriving DecidableEq, Inhabited

/-- What an annotation is applied to; a parameter is given by its position. -/
inductive Site
  | type (id : TypeId)
  | method (id : MethodId)
  | field (id : FieldId)
  | parameter (method : MethodId) (position : Nat)
deriving DecidableEq, Inhabited

/-- How the kind of a site is called. -/
def Site.kindName : Site → String
  | .type _ => "type"
  | .method _ => "method"
  | .field _ => "field"
  | .parameter _ _ => "parameter"

/-- One application of an annotation type. -/
structure UseNode where
  annotationType : TypeReference
  site : Site
  /-- The values given to it, where source code shows them. -/
  sourceValues : Option (Entries Value) := none
deriving Inhabited

/-- Tells the trees of a program apart. -/
structure TreeId where
  number : Nat
deriving DecidableEq, Inhabited, Repr

/-- The nodes of a tree, by sort. Only types are found by name. -/
structure Tree where
  id : TreeId
  types : NamedArena TypeNode := .empty
  methods : Arena MethodNode := .empty
  fields : Arena FieldNode := .empty
  uses : Arena UseNode := .empty
deriving Inhabited

namespace Tree

variable (t : Tree)

/-- The type of an id. -/
def type? (id : TypeId) : Option TypeNode := t.types.get? id.index

/-- The type that a name leads to. -/
def typeByName? (name : String) : Option TypeNode := t.types.getByName? name

/-- The method of an id. -/
def method? (id : MethodId) : Option MethodNode := t.methods.get? id.index

/-- The field of an id. -/
def field? (id : FieldId) : Option FieldNode := t.fields.get? id.index

/-- The annotation use of an id. -/
def use? (id : UseId) : Option UseNode := t.uses.get? id.index

/-- The type that a site belongs to. -/
def enclosingType? : Site → Option TypeId
  | .type id => some id
  | .method id => (t.method? id).map (·.owner)
  | .parameter id _ => (t.method? id).map (·.owner)
  | .field id => (t.field? id).map (·.owner)

/-- The factory of a site, which is that of the type it belongs to. -/
def factoryOf? (site : Site) : Option Factory :=
  (t.enclosingType? site).bind fun id => (t.type? id).map (·.factory)

/-- A reference to a declared type, bound to its factory. -/
def referenceTo? (id : TypeId) : Option TypeReference :=
  (t.type? id).map fun d => ⟨d.name, d.factory⟩

end Tree

end AnnotationLookup
