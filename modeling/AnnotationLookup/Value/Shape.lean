import AnnotationLookup.Value.Basic

/-!
# Plain values

* `Shape`: the plain types that a value can be asked for, each with its `Carrier`;
* `Shape.ofPlain`: the value that a plain value makes;
* `Shape.toPlain`: the plain value that a value was made of;
* `ConversionError`: a value does not have the shape asked for.
-/

namespace AnnotationLookup

/-- The shapes of plain values. -/
inductive Shape
  | bool
  | int64
  | int32
  | float
  | char
  | string
  | classRef
  | array
deriving DecidableEq, Repr

/-- A value does not have the shape asked for. -/
structure ConversionError where
  expected : String
  found : String
deriving DecidableEq, Repr

/-- The text of a failed conversion. -/
def ConversionError.message (e : ConversionError) : String :=
  "expected a " ++ e.expected ++ " value, found " ++ e.found

namespace Shape

/-- The plain values of a shape. -/
abbrev Carrier : Shape → Type
  | .bool => Bool
  | .int64 => Int64
  | .int32 => Int32
  | .float => Binary64
  | .char => Char
  | .string => String
  | .classRef => TypeName
  | .array => List Value

/-- What a value of the shape is called where another one is found. -/
def expected : Shape → String
  | .bool => "boolean"
  | .int64 => "int"
  | .int32 => "int"
  | .float => "float"
  | .char => "char"
  | .string => "string"
  | .classRef => "class"
  | .array => "array"

/-- The value that is made of a plain value. -/
def ofPlain : (s : Shape) → s.Carrier → Value
  | .bool, b => .boolean b
  | .int64, n => .int n
  | .int32, n => .int n.toInt64
  | .float, x => .float x
  | .char, c => .char c
  | .string, s => .string s
  | .classRef, t => .classRef t
  | .array, vs => .array vs

/-- The integer in 32 bits, if it fits them. -/
def narrow (n : Int64) : Except ConversionError Int32 :=
  if Int32.minValue.toInt ≤ n.toInt ∧ n.toInt ≤ Int32.maxValue.toInt then .ok n.toInt32
  else .error ⟨"32-bit int", "int"⟩

/-- The plain value that is taken out of a value, if this is of the shape. -/
def toPlain : (s : Shape) → Value → Except ConversionError s.Carrier
  | .bool, .boolean b => .ok b
  | .int64, .int n => .ok n
  | .int32, .int n => narrow n
  | .float, .float x => .ok x
  | .char, .char c => .ok c
  | .string, .string s => .ok s
  | .classRef, .classRef t => .ok t
  | .array, .array vs => .ok vs
  | s, v => .error ⟨s.expected, v.kindName⟩

end Shape

end AnnotationLookup
