import AnnotationLookup.Entries
import AnnotationLookup.Number.Shortest
import AnnotationLookup.TypeName

/-!
# Annotation values

* `Value`: what an annotation parameter is bound to;
* `AnnotationRecord`: an annotation with the values that are given explicitly;
* `Value.kindName`, `Value.display`: the kind and the text of a value;
* `Value.same`, `AnnotationRecord.same`: equality, which compares floating-point numbers as
  numbers. It is the `BEq` instance of both types.
-/

namespace AnnotationLookup

mutual

/-- The value of one annotation parameter. -/
inductive Value
  | boolean (b : Bool)
  | int (n : Int64)
  | float (x : Binary64)
  | char (c : Char)
  | string (s : String)
  | classRef (t : TypeName)
  | enumConstant (typeName constant : String)
  | nested (a : AnnotationRecord)
  | array (items : List Value)

/-- An annotation as it is recorded on a declaration: its type and the values given to it, by name
in ascending order. -/
structure AnnotationRecord where
  typeName : String
  values : List (String × Value)

end

instance : Inhabited Value := ⟨.boolean false⟩

instance : Inhabited AnnotationRecord := ⟨⟨"", []⟩⟩

namespace Value

/-- How the kind of a value is called in messages. -/
def kindName : Value → String
  | .boolean _ => "boolean"
  | .int _ => "int"
  | .float _ => "float"
  | .char _ => "char"
  | .string _ => "string"
  | .classRef _ => "class"
  | .enumConstant _ _ => "enum"
  | .nested _ => "annotation"
  | .array _ => "array"

/-- The class that a value is. -/
def asClass? : Value → Option TypeName
  | .classRef t => some t
  | _ => none

/-- The text that a value is. -/
def asString? : Value → Option String
  | .string s => some s
  | _ => none

/-! ## Text -/

/-- Numbers are written without an exponent and without an empty fraction; a tie between two
shortest candidates goes up. -/
def numberLayout : Layout where
  plain _ := true
  keepsPoint := false
  tie := .up

/-- The text of a floating-point number. -/
def floatText (x : Binary64) : String :=
  if x.isNaN then "NaN"
  else if x.isFinite then String.ofList (numberLayout.render x)
  else if x.negative then "-inf" else "inf"

mutual

/-- The text of a value, in the notation of source code but without escapes. -/
def display (v : Value) : String :=
  match v with
  | .boolean b => if b then "true" else "false"
  | .int n => toString n.toInt
  | .float x => floatText x
  | .char c => "'" ++ String.singleton c ++ "'"
  | .string s => "\"" ++ s ++ "\""
  | .classRef t => t.text ++ ".class"
  | .enumConstant typeName constant => typeName ++ "." ++ constant
  | .nested a => "@" ++ a.typeName
  | .array [] => "\x7b\x7d"
  | .array (item :: items) => "\x7b" ++ item.display ++ displayRest items
termination_by structural v

/-- The items after the first one, up to the closing brace. -/
def displayRest (items : List Value) : String :=
  match items with
  | [] => "\x7d"
  | item :: items => ", " ++ item.display ++ displayRest items
termination_by structural items

end

end Value

/-! ## Equality -/

mutual

/-- The values are equal, up to the sign of zero; what has NaN in it equals nothing. -/
def Value.same (v w : Value) : Bool :=
  match v, w with
  | .boolean a, .boolean b => a == b
  | .int m, .int n => m == n
  | .float x, .float y => x.same y
  | .char c, .char d => c == d
  | .string s, .string t => s == t
  | .classRef s, .classRef t => s == t
  | .enumConstant s c, .enumConstant t d => s == t && c == d
  | .nested a, .nested b => a.same b
  | .array xs, .array ys => Value.sameItems xs ys
  | _, _ => false
termination_by structural v

/-- The records are of one type, and their values are equal. -/
def AnnotationRecord.same (a b : AnnotationRecord) : Bool :=
  match a, b with
  | ⟨s, vs⟩, ⟨t, ws⟩ => s == t && Value.sameEntries vs ws
termination_by structural a

/-- The items of two arrays are equal, one by one. -/
def Value.sameItems (xs ys : List Value) : Bool :=
  match xs, ys with
  | [], [] => true
  | x :: xs, y :: ys => x.same y && Value.sameItems xs ys
  | _, _ => false
termination_by structural xs

/-- The names and the values of two records are equal, one by one. -/
def Value.sameEntries (vs ws : List (String × Value)) : Bool :=
  match vs, ws with
  | [], [] => true
  | (k, v) :: vs, (l, w) :: ws => k == l && v.same w && Value.sameEntries vs ws
  | _, _ => false
termination_by structural vs

end

instance : BEq Value := ⟨Value.same⟩

instance : BEq AnnotationRecord := ⟨AnnotationRecord.same⟩

namespace AnnotationRecord

/-- The record with a value given to one more parameter, or another value to the same one. -/
def withValue (a : AnnotationRecord) (key : String) (v : Value) : AnnotationRecord :=
  { a with values := Entries.insert key v a.values }

end AnnotationRecord

end AnnotationLookup
