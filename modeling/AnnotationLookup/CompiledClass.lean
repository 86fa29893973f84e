import AnnotationLookup.Value.Basic

/-!
# Compiled classes

What introspection of a compiled class shows: its methods with their exact parameter types, and the
annotations recorded on the class and on its methods.

* `CompiledMethod`, `CompiledClass`, with the functions that add to them;
* `CompiledClass.methodsMatching`: the methods of an exact signature;
* `CompiledClass.elements`: the methods without parameters, which for an annotation type are its
  elements.
-/

namespace AnnotationLookup

/-- The kinds of compiled classes. -/
inductive ClassKind
  | ordinary
  | interface
  | annotationType
  | enumeration
deriving DecidableEq, Inhabited, Repr

/-- The first record of an annotation type. -/
def recordOf? (records : List AnnotationRecord) (annotationType : String) :
    Option AnnotationRecord :=
  records.find? (·.typeName == annotationType)

/-- Parameter types as they stand between the parentheses of a signature. -/
def signatureOf (parameterTypes : List TypeName) : String :=
  ", ".intercalate (parameterTypes.map (·.text))

/-- A compiled method. It may be the element of an annotation type, and then it may have a
default. -/
structure CompiledMethod where
  name : String
  parameterTypes : List TypeName := []
  annotations : List AnnotationRecord := []
  /-- The default of an element of an annotation type. -/
  defaultValue : Option Value := none
deriving BEq, Inhabited

namespace CompiledMethod

/-- The method with one more record, after the others. -/
def withRecord (m : CompiledMethod) (a : AnnotationRecord) : CompiledMethod :=
  { m with annotations := m.annotations ++ [a] }

/-- The first record of an annotation type on the method. -/
def recordOf? (m : CompiledMethod) (annotationType : String) : Option AnnotationRecord :=
  AnnotationLookup.recordOf? m.annotations annotationType

/-- The parameter types, as they are shown in messages. -/
def signature (m : CompiledMethod) : String := signatureOf m.parameterTypes

/-- The method has exactly this name and these parameter types, in order. -/
def matchesSignature (m : CompiledMethod) (name : String) (parameterTypes : List TypeName) : Bool :=
  m.name == name && m.parameterTypes == parameterTypes

/-- Elements of annotation types are the methods without parameters. -/
def isElement (m : CompiledMethod) : Bool := m.parameterTypes.isEmpty

end CompiledMethod

/-- A compiled class with what is recorded on it and on its methods. -/
structure CompiledClass where
  name : String
  kind : ClassKind
  annotations : List AnnotationRecord := []
  methods : List CompiledMethod := []
deriving BEq, Inhabited

namespace CompiledClass

variable (c : CompiledClass)

/-- The class with one more record, after the others. -/
def withRecord (a : AnnotationRecord) : CompiledClass :=
  { c with annotations := c.annotations ++ [a] }

/-- The class with one more method, after the others. -/
def withMethod (m : CompiledMethod) : CompiledClass :=
  { c with methods := c.methods ++ [m] }

/-- The type that the class is. -/
def typeName : TypeName := ⟨c.name⟩

/-- The first record of an annotation type on the class itself. -/
def recordOf? (annotationType : String) : Option AnnotationRecord :=
  AnnotationLookup.recordOf? c.annotations annotationType

/-- The methods of a name and of exactly these parameter types. -/
def methodsMatching (name : String) (parameterTypes : List TypeName) : List CompiledMethod :=
  c.methods.filter (·.matchesSignature name parameterTypes)

/-- The methods without parameters, in order. -/
def elements : List CompiledMethod := c.methods.filter (·.isElement)

end CompiledClass

end AnnotationLookup
