import AnnotationLookup.TypeName

/-!
# Type references

Every declaration is modelled with a factory, which stands for one class path. Two references of
one name to different factories may mean different classes.

* `Factory`, `Factory.display`;
* `TypeReference`, `TypeReference.rebind`.
-/

namespace AnnotationLookup

/-- The binding context that a declaration was modelled in. -/
structure Factory where
  number : UInt32
deriving DecidableEq, Inhabited, Repr

namespace Factory

/-- How a factory is called in messages. -/
def display (f : Factory) : String := "factory#" ++ toString f.number.toNat

/-- The order of factories by number. -/
def le (f g : Factory) : Bool := decide (f.number.toNat ≤ g.number.toNat)

end Factory

/-- A type by its qualified name, bound to the factory that should know it. -/
structure TypeReference where
  name : String
  factory : Factory
deriving DecidableEq, Inhabited, Repr

namespace TypeReference

/-- The reference by the same name to another factory. -/
def rebind (r : TypeReference) (factory : Factory) : TypeReference := { r with factory }

/-- The type's name without the factory. -/
def typeName (r : TypeReference) : TypeName := ⟨r.name⟩

end TypeReference

end AnnotationLookup
