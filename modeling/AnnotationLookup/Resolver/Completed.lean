import AnnotationLookup.CompiledClass
import AnnotationLookup.Resolver.Failure

/-!
# Completed annotations

* `Completed`: an annotation with a value for every element that has one, given or by default;
* `Completed.merge`: the values given in a record over the defaults of the annotation type;
* `Completed.undeclared`: the keys of a record that the annotation type does not declare;
* `Completed.value`: the value of an element.
-/

namespace AnnotationLookup

/-- An annotation with the values that are given and the defaults of its type. -/
structure Completed where
  annotationType : TypeName
  /-- The names of the declared elements, in order and with repetitions. -/
  elements : List String
  values : Entries Value
deriving BEq, Inhabited

namespace Completed

/-- The value of an element in a record: the one given, or else the default. -/
def valueOf? (record : AnnotationRecord) (element : CompiledMethod) : Option Value :=
  (Entries.get? record.values element.name).or element.defaultValue

/-- The values so far with that of one more element. -/
def addElement (record : AnnotationRecord) (values : Entries Value) (element : CompiledMethod) :
    Entries Value :=
  match valueOf? record element with
  | some v => values.insert element.name v
  | none => values

/-- Of several elements of one name, the last one with a default decides the default. -/
def merge (annotationType : CompiledClass) (record : AnnotationRecord) : Completed where
  annotationType := annotationType.typeName
  elements := annotationType.elements.map (·.name)
  values := annotationType.elements.foldl (addElement record) []

/-- The annotation type has an element of the name. -/
def declares (a : Completed) (key : String) : Bool := a.elements.contains key

/-- The keys with a value in a record that are no elements of the annotation type. -/
def undeclared (annotationType : CompiledClass) (record : AnnotationRecord) : List String :=
  (Entries.names record.values).filter fun key => !(merge annotationType record).declares key

/-- The value of a key, which is either not known or may be without a value. -/
def value (a : Completed) (key : String) : Except Cause Value :=
  if a.declares key then
    match a.values.get? key with
    | some v => .ok v
    | none => .error (.noValue a.annotationType.text key)
  else .error (.unknownParameter a.annotationType.text key)

end Completed

end AnnotationLookup
