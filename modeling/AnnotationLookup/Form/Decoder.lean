import AnnotationLookup.Entries
import AnnotationLookup.Json.Reader

/-!
# Decoding documents

A decoder takes the number of containers that may still be opened and a document, and gives back
what the document denotes, if it denotes something of its type.

* `Decoder`, with `Decoder.text`, `Decoder.list`, `Decoder.entries`, `Decoder.nullable`,
  `Decoder.oneOf` and the bounded integers;
* `Json.fields?`: the fields of a record, which is an object of its fields in any order, among
  others of no meaning, or the array of its fields in order;
* `Decoder.ofText?`: what a text denotes, in which containers may be nested `maxDepth` deep;
* `Decoder.ofDocument?`: what a document denotes, however deep it is.
-/

namespace AnnotationLookup

/-- How deep containers may be nested in a text, on the way to a value. -/
def maxDepth : Nat := 127

/-- Whether a document stands alone or is a part of another one. -/
inductive Medium
  | text
  | embedded
deriving DecidableEq, Repr

/-- A reader of documents, given how many more containers may be opened. -/
abbrev Decoder (α : Type) := Nat → Json → Option α

namespace Decoder

variable {α : Type}

/-- A text. -/
def text : Decoder String := fun _ j => j.asText?

/-- A truth value. -/
def bool : Decoder Bool := fun _ j => j.asBool?

/-- An integer of an interval. -/
def intIn (low high : Int) : Decoder Int := fun _ j =>
  j.asInt?.filter fun n => low ≤ n ∧ n ≤ high

/-- A natural number below a bound. -/
def natBelow (bound : Nat) : Decoder Nat := fun _ j => j.asNat?.filter (· < bound)

/-- A signed integer of 64 bits. -/
def int64 : Decoder Int64 := fun depth j =>
  (intIn Int64.minValue.toInt Int64.maxValue.toInt depth j).map Int64.ofInt

/-- A signed integer of 32 bits. -/
def int32 : Decoder Int32 := fun depth j =>
  (intIn Int32.minValue.toInt Int32.maxValue.toInt depth j).map Int32.ofInt

/-- A natural number of 32 bits. -/
def uint32 : Decoder UInt32 := fun depth j => (natBelow UInt32.size depth j).map UInt32.ofNat

/-- An index or a position, which has 64 bits. -/
def index : Decoder Nat := natBelow UInt64.size

/-- A floating-point number may be written as an integer. -/
def float : Decoder Binary64
  | _, .float x => some x
  | _, .int n => some (.ofInt n)
  | _, _ => none

/-- A text of one character. -/
def char : Decoder Char
  | _, .str s => match s.toList with
    | [c] => some c
    | _ => none
  | _, _ => none

/-- The items of an array, all of which have to be read. -/
def list (d : Decoder α) : Decoder (List α)
  | depth + 1, .arr items => items.mapM (d depth)
  | _, _ => none

/-- Entries by name, of which the last one of each name counts; all of them have to denote
something. -/
def entries (d : Decoder α) : Decoder (Entries α)
  | depth + 1, .obj members =>
    (members.mapM fun (p : String × Json) => (d depth p.2).map (p.1, ·)).map Entries.ofList
  | _, _ => none

/-- A value, or `null` for none. -/
def nullable (d : Decoder α) : Decoder (Option α)
  | _, .null => some none
  | depth, j => (d depth j).map some

/-- A name of a table, alone or as the name of an empty member. -/
def oneOf (table : List (String × α)) : Decoder α
  | _, .str s => table.lookup s
  | _ + 1, .obj [(s, .null)] => table.lookup s
  | _, _ => none

/-- What the text of a document denotes. -/
def ofText? (d : Decoder α) (source : String) : Option α := (Json.read? source).bind (d maxDepth)

/-- What a document denotes that is not a text; it may be of any depth. -/
def ofDocument? (d : Decoder α) (document : Json) : Option α := d document.depth document

/-! ## Fields -/

/-- A field that has to be there. -/
def required (d : Decoder α) (depth : Nat) (field : Option Json) : Option α := field.bind (d depth)

/-- A field that has a default. -/
def withDefault (default : α) (d : Decoder α) (depth : Nat) (field : Option Json) : Option α :=
  match field with
  | none => some default
  | some j => d depth j

end Decoder

namespace Json

/-- The member of a name: refused where there are several. -/
def uniqueMember? (members : List (String × Json)) (name : String) : Option (Option Json) :=
  match members.filter (·.1 == name) with
  | [] => some none
  | [(_, j)] => some (some j)
  | _ => none

/-- The fields of a record in the order of their names. Written as an array, it has at least the
first `least` of them. -/
def fields? (names : List String) (least : Nat) : Json → Option (List (Option Json))
  | .obj members => names.mapM (uniqueMember? members)
  | .arr items =>
    if least ≤ items.length ∧ items.length ≤ names.length then
      some (items.map some ++ List.replicate (names.length - items.length) none)
    else none
  | _ => none

end Json

end AnnotationLookup
