import AnnotationLookup.Json.Basic

/-!
# Reading JSON text

A reader takes the characters that are left and gives back a part of the document with the rest.

* `Json.readNumber`, `Json.readText`, `Json.readValue`: one token or value;
* `Json.read?`: a whole document, with nothing but blanks around it.

An integer that fits 64 bits, signed or unsigned, is an integer; every other number, and `-0`, is
the nearest binary64 number. That it is the nearest one is assumed: a reader may be content with a
number close by, and then a text is not always read as the number that was written.
-/

namespace AnnotationLookup.Json

/-! ## Blanks -/

/-- The characters that may stand between tokens. -/
def isBlank (c : Char) : Bool := c == ' ' || c == '\n' || c == '\t' || c == '\r'

/-- The characters after blanks. -/
def skipBlanks (cs : List Char) : List Char := cs.dropWhile isBlank

/-! ## Numbers -/

/-- A run of digits and the rest. -/
def spanDigits (cs : List Char) : List Char × List Char :=
  (cs.takeWhile Char.isDigit, cs.dropWhile Char.isDigit)

/-- Digits without a leading zero, unless there is one digit only. -/
def readWhole (cs : List Char) : Option (List Char × List Char) :=
  match cs with
  | '0' :: rest => if rest.head?.any Char.isDigit then none else some (['0'], rest)
  | _ => let (ds, rest) := spanDigits cs; if ds.isEmpty then none else some (ds, rest)

/-- The digits after a point; no digits where there is no point. -/
def readFraction (cs : List Char) : Option (List Char × List Char) :=
  match cs with
  | '.' :: rest => let (ds, rest) := spanDigits rest; if ds.isEmpty then none else some (ds, rest)
  | _ => some ([], cs)

/-- The digits of an exponent, with its sign. -/
def readExponentDigits (negative : Bool) (cs : List Char) : Option (Option Int × List Char) :=
  let (ds, rest) := spanDigits cs
  let n := Nat.ofDigitChars 10 ds 0
  if ds.isEmpty then none else some (some (if negative then -(n : Int) else n), rest)

/-- The exponent after `e` or `E`, if there is one. -/
def readExponent (cs : List Char) : Option (Option Int × List Char) :=
  match cs with
  | [] => some (none, [])
  | e :: rest =>
    if e == 'e' || e == 'E' then
      match rest with
      | '-' :: rest => readExponentDigits true rest
      | '+' :: rest => readExponentDigits false rest
      | _ => readExponentDigits false rest
    else some (none, cs)

/-- The number that a token denotes, if any does. What is no integer of 64 bits is assumed to be
rounded correctly, to the nearest binary64 number. -/
def numberOf (negative : Bool) (whole fraction : List Char) (exponent : Option Int) : Json :=
  let digits := Nat.ofDigitChars 10 (whole ++ fraction) 0
  let integral := fraction.isEmpty && exponent.isNone
  if integral && !negative && decide (digits < UInt64.size) then .int digits
  else if integral && negative && decide (0 < digits ∧ Int64.minValue.toInt ≤ -digits) then
    .int (-digits)
  else
    let x := Binary64.ofDecimal negative digits (exponent.getD 0 - fraction.length)
    if x.isFinite then .float x else .undefined

/-- The parts of a number after its sign. -/
def readUnsigned (negative : Bool) (cs : List Char) : Option (Json × List Char) := do
  let (whole, cs) ← readWhole cs
  let (fraction, cs) ← readFraction cs
  let (exponent, cs) ← readExponent cs
  some (numberOf negative whole fraction exponent, cs)

/-- A number with its sign, and the rest. -/
def readNumber (cs : List Char) : Option (Json × List Char) :=
  match cs with
  | '-' :: rest => readUnsigned true rest
  | _ => readUnsigned false cs

/-! ## Texts -/

/-- The value of a hexadecimal digit. -/
def hexValue? (c : Char) : Option Nat :=
  if c.isDigit then some (c.toNat - '0'.toNat)
  else if 'a' ≤ c ∧ c ≤ 'f' then some (c.toNat - 'a'.toNat + 10)
  else if 'A' ≤ c ∧ c ≤ 'F' then some (c.toNat - 'A'.toNat + 10)
  else none

/-- The 16-bit unit that four hexadecimal digits spell. -/
def unit? (a b c d : Char) : Option Nat := do
  some (((← hexValue? a) * 16 + (← hexValue? b)) * 256 + (← hexValue? c) * 16 + (← hexValue? d))

/-- The units that begin a surrogate pair. -/
def isHighSurrogate (u : Nat) : Bool := 0xD800 ≤ u && u < 0xDC00

/-- The units that end a surrogate pair. -/
def isLowSurrogate (u : Nat) : Bool := 0xDC00 ≤ u && u < 0xE000

/-- The character that a surrogate pair stands for. -/
def joinSurrogates (high low : Nat) : Char :=
  Char.ofNat (0x10000 + (high - 0xD800) * 0x400 + (low - 0xDC00))

/-- The character that a letter after a backslash stands for. -/
def escape? : Char → Option Char
  | '"' => some '"'
  | '\\' => some '\\'
  | '/' => some '/'
  | 'b' => some '\x08'
  | 'f' => some '\x0c'
  | 'n' => some '\n'
  | 'r' => some '\r'
  | 't' => some '\t'
  | _ => none

/-- A piece of a text as it is written: a character, or a 16-bit unit given by its digits. -/
inductive Piece
  | char (c : Char)
  | unit (u : Nat)

/-- The pieces up to the closing quote. -/
def readPieces : List Char → Option (List Piece × List Char)
  | [] => none
  | '"' :: rest => some ([], rest)
  | '\\' :: 'u' :: a :: b :: c :: d :: rest =>
    match unit? a b c d with
    | none => none
    | some u => (readPieces rest).map fun (ps, rest) => (.unit u :: ps, rest)
  | '\\' :: c :: rest =>
    match escape? c with
    | none => none
    | some c => (readPieces rest).map fun (ps, rest) => (.char c :: ps, rest)
  | c :: rest =>
    if c.toNat < 0x20 then none
    else (readPieces rest).map fun (ps, rest) => (.char c :: ps, rest)

/-- The characters that pieces stand for, unless half a surrogate pair is among them. -/
def joinPieces? : List Piece → Option (List Char)
  | [] => some []
  | .char c :: rest => (joinPieces? rest).map (c :: ·)
  | .unit u :: rest =>
    if isHighSurrogate u then
      match rest with
      | .unit v :: rest =>
        if isLowSurrogate v then (joinPieces? rest).map (joinSurrogates u v :: ·) else none
      | _ => none
    else if isLowSurrogate u then none
    else (joinPieces? rest).map (Char.ofNat u :: ·)

/-- A text after its opening quote: `none` in place of the text if it denotes none. -/
def readText (cs : List Char) : Option (Option String × List Char) :=
  (readPieces cs).map fun (ps, rest) => ((joinPieces? ps).map String.ofList, rest)

/-- The name of a member, from its opening quote to the colon. -/
def readName (cs : List Char) : Option (Option String × List Char) :=
  match cs with
  | '"' :: rest =>
    match readText rest with
    | none => none
    | some (text, rest) =>
      match skipBlanks rest with
      | ':' :: rest => some (text, rest)
      | _ => none
  | _ => none

/-! ## Values -/

/-- An object; one of whose names denotes nothing denotes nothing itself. -/
def objectOf (members : Option (List (String × Json))) : Json :=
  match members with
  | some members => .obj members
  | none => .undefined

mutual

/-- A value, after blanks. The first argument bounds the depth of the recursion. -/
def readValue : Nat → List Char → Option (Json × List Char)
  | 0, _ => none
  | fuel + 1, cs =>
    match skipBlanks cs with
    | 'n' :: 'u' :: 'l' :: 'l' :: rest => some (.null, rest)
    | 't' :: 'r' :: 'u' :: 'e' :: rest => some (.bool true, rest)
    | 'f' :: 'a' :: 'l' :: 's' :: 'e' :: rest => some (.bool false, rest)
    | '"' :: rest =>
      (readText rest).map fun (text, rest) =>
        (match text with | some text => .str text | none => .undefined, rest)
    | '[' :: rest =>
      match skipBlanks rest with
      | ']' :: rest => some (.arr [], rest)
      | _ => (readItems fuel rest).map fun (items, rest) => (.arr items, rest)
    | '{' :: rest =>
      match skipBlanks rest with
      | '}' :: rest => some (.obj [], rest)
      | _ => (readMembers fuel rest).map fun (members, rest) => (objectOf members, rest)
    | cs => readNumber cs

/-- The items of an array up to its end, of which there is at least one. -/
def readItems : Nat → List Char → Option (List Json × List Char)
  | 0, _ => none
  | fuel + 1, cs =>
    match readValue fuel cs with
    | none => none
    | some (item, rest) =>
      match skipBlanks rest with
      | ']' :: rest => some ([item], rest)
      | ',' :: rest => (readItems fuel rest).map fun (items, rest) => (item :: items, rest)
      | _ => none

/-- The members of an object up to its end, of which there is at least one. -/
def readMembers : Nat → List Char → Option (Option (List (String × Json)) × List Char)
  | 0, _ => none
  | fuel + 1, cs =>
    match readName (skipBlanks cs) with
    | none => none
    | some (name, rest) =>
      match readValue fuel rest with
      | none => none
      | some (value, rest) =>
        let add (members : Option (List (String × Json))) :=
          match name, members with
          | some name, some members => some ((name, value) :: members)
          | _, _ => none
        match skipBlanks rest with
        | '}' :: rest => some (add (some []), rest)
        | ',' :: rest => (readMembers fuel rest).map fun (members, rest) => (add members, rest)
        | _ => none

end

/-- The document that a text spells. Each value takes at least one character and at most two levels
of the recursion, so twice the length bounds its depth. -/
def readChars? (cs : List Char) : Option Json :=
  match readValue (2 * cs.length + 2) cs with
  | some (j, rest) => if (skipBlanks rest).isEmpty then some j else none
  | none => none

/-- The document that a text denotes, with nothing but blanks around it. -/
def read? (text : String) : Option Json := readChars? text.toList

end AnnotationLookup.Json
