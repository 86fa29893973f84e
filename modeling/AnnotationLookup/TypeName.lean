/-!
# Type names

A compiled type is known by its name: a primitive type, a class, or an array type, which is the
name of another type followed by `[]`.

* `TypeName.isPrimitive`;
* `TypeName.splitArray`: the element type of an array type with its number of dimensions;
* `TypeName.arrayOf`: the array type with that many more dimensions.
-/

namespace AnnotationLookup

/-- The name of a type, as it is written; array types end in brackets. -/
structure TypeName where
  text : String
deriving DecidableEq, Inhabited, Repr

namespace TypeName

/-- The types that exist without being declared anywhere. -/
def primitives : List String :=
  ["boolean", "byte", "char", "short", "int", "long", "float", "double", "void"]

/-- The name is that of a primitive type. -/
def isPrimitive (t : TypeName) : Bool := primitives.contains t.text

/-- Strips leading pairs of brackets of a reversed name and counts them. -/
def stripBrackets : List Char → List Char × Nat
  | ']' :: '[' :: rest => ((stripBrackets rest).1, (stripBrackets rest).2 + 1)
  | cs => (cs, 0)

/-- The element type and the number of dimensions. A type that is no array is its own element type,
with no dimension. -/
def splitArray (t : TypeName) : TypeName × Nat :=
  let (element, dimensions) := stripBrackets t.text.toList.reverse
  (⟨String.ofList element.reverse⟩, dimensions)

/-- So many pairs of brackets. -/
def brackets (dimensions : Nat) : List Char := (List.replicate dimensions ['[', ']']).flatten

/-- The array type of so many dimensions. -/
def arrayOf (t : TypeName) (dimensions : Nat) : TypeName :=
  ⟨String.ofList (t.text.toList ++ brackets dimensions)⟩

/-- The order of names by code points. -/
def le (s t : TypeName) : Bool := decide (s.text ≤ t.text)

end TypeName

end AnnotationLookup
