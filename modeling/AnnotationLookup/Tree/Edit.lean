import AnnotationLookup.Tree.Basic

/-!
# Growing a declaration tree

* `Edit`: one step in building a tree;
* `Edit.apply`: the tree after the step, and the id of the node or the reason why it was refused;
* `Refusal`: why a step is refused.

A tree after a refused step is not always the tree before it: a member is stored before its owner
is looked up, so adding a member to a type that is not there leaves the member without an owner
that lists it. An annotation is refused before anything is stored.
-/

namespace AnnotationLookup

/-- Why an edit is refused. -/
inductive Refusal
  /-- The step names a node that is not there. -/
  | vacant
  | parameterOutOfRange (position : Nat) (method : String) (count : Nat)
deriving DecidableEq, Repr

/-- What is said about a refusal, where something is. -/
def Refusal.message? : Refusal → Option String
  | .vacant => none
  | .parameterOutOfRange position method count =>
    some ("parameter " ++ toString position ++ " is out of range for `" ++ method ++ "` with "
      ++ toString count ++ " parameters")

namespace Tree

variable (t : Tree)

/-- Declares a type. A name that is known already keeps the type it has. -/
def addType (name : String) (kind : ClassKind) (origin : Origin) (factory : Factory) :
    Tree × TypeId :=
  let node : TypeNode := { name := name, kind := kind, origin := origin, factory := factory }
  let (types, i) := t.types.insert name node
  ({ t with types }, ⟨i⟩)

/-- Changes a type that is there. -/
def editType (id : TypeId) (f : TypeNode → TypeNode) : Tree × Except Refusal Unit :=
  match t.type? id with
  | some _ => ({ t with types := t.types.modify id.index f }, .ok ())
  | none => (t, .error .vacant)

/-- Adds a method to a type. It is stored before the type is looked for, and stays if there is
none. -/
def addMethod (owner : TypeId) (name : String) (parameters : List ParameterNode) :
    Tree × Except Refusal MethodId :=
  let (methods, i) := t.methods.insert { name := name, owner := owner, parameters := parameters }
  let id : MethodId := ⟨i⟩
  let (t, outcome) := { t with methods }.editType owner fun d =>
    { d with methods := d.methods ++ [id] }
  (t, outcome.map fun _ => id)

/-- Adds a method without parameters that has a default. -/
def addElement (owner : TypeId) (name : String) (defaultValue : Option Value) :
    Tree × Except Refusal MethodId :=
  match t.addMethod owner name [] with
  | (t, .ok id) =>
    ({ t with methods := t.methods.modify id.index ({ · with defaultValue }) }, .ok id)
  | refused => refused

/-- Adds a field to a type. It is stored before the type is looked for, and stays if there is
none. -/
def addField (owner : TypeId) (name : String) (type : TypeReference) :
    Tree × Except Refusal FieldId :=
  let (fields, i) := t.fields.insert { name := name, owner := owner, type := type }
  let id : FieldId := ⟨i⟩
  let (t, outcome) := { t with fields }.editType owner fun d =>
    { d with fields := d.fields ++ [id] }
  (t, outcome.map fun _ => id)

/-- Why a site cannot be annotated, if it cannot. -/
def refusal? : Site → Option Refusal
  | .type id => if (t.type? id).isSome then none else some .vacant
  | .method id => if (t.method? id).isSome then none else some .vacant
  | .field id => if (t.field? id).isSome then none else some .vacant
  | .parameter id position =>
    match t.method? id with
    | none => some .vacant
    | some m =>
      if position < m.parameters.length then none
      else some (.parameterOutOfRange position m.name m.parameters.length)

/-- Lists an annotation at its site. -/
def listUse (use : UseId) : Site → Tree
  | .type id =>
    { t with types := t.types.modify id.index fun d =>
        { d with annotations := d.annotations ++ [use] } }
  | .method id =>
    { t with methods := t.methods.modify id.index fun m =>
        { m with annotations := m.annotations ++ [use] } }
  | .field id =>
    { t with fields := t.fields.modify id.index fun f =>
        { f with annotations := f.annotations ++ [use] } }
  | .parameter id position =>
    { t with methods := t.methods.modify id.index fun m =>
        { m with parameters := m.parameters.modify position fun p =>
            { p with annotations := p.annotations ++ [use] } } }

/-- Applies an annotation type to a site, with the values that source code shows, if it does. -/
def annotate (site : Site) (annotationType : TypeReference)
    (sourceValues : Option (Entries Value)) : Tree × Except Refusal UseId :=
  match t.refusal? site with
  | some refusal => (t, .error refusal)
  | none =>
    let node : UseNode :=
      { annotationType := annotationType, site := site, sourceValues := sourceValues }
    let (uses, i) := t.uses.insert node
    ({ t with uses }.listUse ⟨i⟩ site, .ok ⟨i⟩)

end Tree

/-! ## Edits as data -/

/-- One step in building a tree. -/
inductive Edit
  | addType (name : String) (kind : ClassKind) (origin : Origin) (factory : Factory)
  /-- Adds a method with parameters as they are, which may list annotations already. -/
  | addMethodNode (owner : TypeId) (name : String) (parameters : List ParameterNode)
  | addElement (owner : TypeId) (name : String) (defaultValue : Option Value)
  | addField (owner : TypeId) (name : String) (type : TypeReference)
  | annotate (site : Site) (annotationType : TypeReference) (values : Option (Entries Value))

/-- A parameter without annotations. -/
def ParameterNode.ofPair (p : String × TypeReference) : ParameterNode :=
  { name := p.1, type := p.2 }

/-- Adds a method whose parameters list no annotations yet. -/
def Edit.addMethod (owner : TypeId) (name : String) (parameters : List (String × TypeReference)) :
    Edit :=
  .addMethodNode owner name (parameters.map ParameterNode.ofPair)

/-- The tree after an edit, and the index of the node that the edit made or found. -/
def Edit.apply (t : Tree) : Edit → Tree × Except Refusal Nat
  | .addType name kind origin factory =>
    let (t, id) := t.addType name kind origin factory
    (t, .ok id.index)
  | .addMethodNode owner name parameters =>
    let (t, outcome) := t.addMethod owner name parameters
    (t, outcome.map (·.index))
  | .addElement owner name defaultValue =>
    let (t, outcome) := t.addElement owner name defaultValue
    (t, outcome.map (·.index))
  | .addField owner name type =>
    let (t, outcome) := t.addField owner name type
    (t, outcome.map (·.index))
  | .annotate site annotationType values =>
    let (t, outcome) := t.annotate site annotationType values
    (t, outcome.map (·.index))

end AnnotationLookup
