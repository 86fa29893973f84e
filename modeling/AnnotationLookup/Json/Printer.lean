import AnnotationLookup.Json.Basic

/-!
# JSON text

* `Json.numberLayout`: how a number is laid out;
* `Json.quoted`: a text between quotes, with only the escapes that JSON requires;
* `Json.render`: the text of a document, without blanks.
-/

namespace AnnotationLookup.Json

/-- Numbers from `10 ^ -5` up to `10 ^ 16` are written without an exponent and always have a point;
a tie between two shortest candidates goes to the even digit. -/
def numberLayout : Layout where
  plain e := decide (-5 ≤ e) && decide (e ≤ 15)
  keepsPoint := true
  tie := .toEven

/-- The hexadecimal digit of a number below 16, in lower case. -/
def hexDigit (n : Nat) : Char := Nat.digitChar n

/-- A character inside quotes. -/
def escaped (c : Char) : List Char :=
  if c = '"' then ['\\', '"']
  else if c = '\\' then ['\\', '\\']
  else if c = '\x08' then ['\\', 'b']
  else if c = '\x0c' then ['\\', 'f']
  else if c = '\n' then ['\\', 'n']
  else if c = '\r' then ['\\', 'r']
  else if c = '\t' then ['\\', 't']
  else if c.toNat < 0x20 then
    ['\\', 'u', '0', '0', hexDigit (c.toNat / 16), hexDigit (c.toNat % 16)]
  else [c]

/-- A text between quotes, with escapes. -/
def quoted (s : String) : List Char := '"' :: (s.toList.flatMap escaped ++ ['"'])

/-- The text of an integer. -/
def intText (n : Int) : List Char :=
  if n < 0 then '-' :: Nat.toDigits 10 n.natAbs else Nat.toDigits 10 n.natAbs

mutual

/-- The compact text of a document. -/
def chars : Json → List Char
  | .null => ['n', 'u', 'l', 'l']
  | .bool true => ['t', 'r', 'u', 'e']
  | .bool false => ['f', 'a', 'l', 's', 'e']
  | .int n => intText n
  | .float x => numberLayout.render x
  | .str s => quoted s
  | .arr [] => ['[', ']']
  | .arr (item :: items) => '[' :: (item.chars ++ itemChars items)
  | .obj [] => ['{', '}']
  | .obj ((name, value) :: members) =>
    '{' :: (quoted name ++ ':' :: (value.chars ++ memberChars members))
  | .undefined => ['n', 'u', 'l', 'l']

/-- The rest of an array after an item. -/
def itemChars : List Json → List Char
  | [] => [']']
  | item :: items => ',' :: (item.chars ++ itemChars items)

/-- The rest of an object after a member. -/
def memberChars : List (String × Json) → List Char
  | [] => ['}']
  | (name, value) :: members =>
    ',' :: (quoted name ++ ':' :: (value.chars ++ memberChars members))

end

/-- The text of a document. -/
def render (j : Json) : String := String.ofList j.chars

end AnnotationLookup.Json
