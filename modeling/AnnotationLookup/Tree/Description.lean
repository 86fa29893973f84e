import AnnotationLookup.Tree.Basic

/-!
# Descriptions of source declarations

A type that was read from source is described as a compiled class would be. Of its annotations only
those appear whose values the source shows.

* `Tree.records`: the annotation records of a list of uses;
* `Tree.describe`: the description of a type.
-/

namespace AnnotationLookup.Tree

variable (t : Tree)

/-- The record of a use that is there and has values. -/
def record? (id : UseId) : Option AnnotationRecord := do
  let use ← t.use? id
  let values ← use.sourceValues
  some ⟨use.annotationType.name, values⟩

/-- The records of uses, but for those that have none. -/
def records (ids : List UseId) : List AnnotationRecord := ids.filterMap t.record?

/-- The compiled method that a declaration amounts to. -/
def describeMethod (m : MethodNode) : CompiledMethod where
  name := m.name
  parameterTypes := m.parameters.map (·.type.typeName)
  annotations := t.records m.annotations
  defaultValue := m.defaultValue

/-- The compiled class that a declaration amounts to. -/
def describe (d : TypeNode) : CompiledClass where
  name := d.name
  kind := d.kind
  annotations := t.records d.annotations
  methods := (d.methods.filterMap t.method?).map t.describeMethod

end AnnotationLookup.Tree
