import AnnotationLookup.Number.Shortest

/-!
# JSON documents

* `Json`: a document, with integers and binary64 numbers kept apart and members in written order;
* `Json.ofBinary64`: the document of a number, which is `null` if the number is not finite;
* `Json.member?` and the `as…?` functions: access to the parts of a document;
* `Json.depth`: how deep arrays and objects are nested.

Some tokens are well formed and denote nothing: a number beyond every binary64 number, or a text
with half a surrogate pair. They are kept as `Json.undefined`, because a reader that skips a member
does not look at what its value denotes.
-/

namespace AnnotationLookup

/-- A document. Integers and other numbers are kept apart, and members stay in the order in which
they are written. -/
inductive Json
  | null
  | bool (b : Bool)
  | int (n : Int)
  /-- A finite number. -/
  | float (x : Binary64)
  | str (s : String)
  | arr (items : List Json)
  | obj (members : List (String × Json))
  | undefined
deriving Inhabited

namespace Json

/-- Only a finite number can be written in a document. -/
def ofBinary64 (x : Binary64) : Json := if x.isFinite then .float x else .null

/-! ## Parts -/

/-- The first member of this name. -/
def member? (name : String) : Json → Option Json
  | .obj members => (members.find? (·.1 == name)).map (·.2)
  | _ => none

/-- The truth value that a document is. -/
def asBool? : Json → Option Bool
  | .bool b => some b
  | _ => none

/-- The integer that a document is. -/
def asInt? : Json → Option Int
  | .int n => some n
  | _ => none

/-- The natural number that a document is. -/
def asNat? : Json → Option Nat
  | .int (.ofNat n) => some n
  | _ => none

/-- The text that a document is. -/
def asText? : Json → Option String
  | .str s => some s
  | _ => none

/-- The items of a document that is an array. -/
def asItems? : Json → Option (List Json)
  | .arr items => some items
  | _ => none

/-! ## Depth -/

mutual

/-- The greatest number of arrays and objects around a part of a document, with the part itself. -/
def depth : Json → Nat
  | .arr items => depthOfItems items + 1
  | .obj members => depthOfMembers members + 1
  | _ => 0

/-- The greatest depth among the items of an array. -/
def depthOfItems : List Json → Nat
  | [] => 0
  | item :: items => max item.depth (depthOfItems items)

/-- The greatest depth among the members of an object. -/
def depthOfMembers : List (String × Json) → Nat
  | [] => 0
  | (_, value) :: members => max value.depth (depthOfMembers members)

end

end Json

end AnnotationLookup
