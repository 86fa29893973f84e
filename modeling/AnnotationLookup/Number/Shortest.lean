import AnnotationLookup.Number.Binary64

/-!
# Shortest decimal digits

The decimal text of a binary64 number has the fewest digits that read back as the same number, and
of those the ones nearest to its exact value.

* `Decimal`: an integer significand and a power of ten;
* `Binary64.shortest`: the shortest digits of a finite number;
* `Layout`, `Layout.render`: how digits become text.

A number has a finite decimal expansion, so cutting it at 1, 2, … digits and testing the two
neighbours on that grid ends at the latest with the expansion itself.
-/

namespace AnnotationLookup

/-- The value `digits · 10 ^ exponent`. -/
structure Decimal where
  digits : Nat
  exponent : Int
deriving DecidableEq, Repr

/-- Drops trailing zeros, keeping the value. -/
def Decimal.reduce (d : Decimal) : Decimal :=
  if 0 < d.digits ∧ d.digits % 10 = 0 then reduce ⟨d.digits / 10, d.exponent + 1⟩ else d
termination_by d.digits
decreasing_by omega

/-- What becomes of a value half way between two shortest candidates. -/
inductive Tie
  | toEven
  | up
deriving DecidableEq, Repr

namespace Binary64

/-- The exact value of a finite number without its sign. -/
def exactDecimal (x : Binary64) : Decimal := ⟨x.units * Nat.pow 5 1074, -1074⟩

/-- The decimal reads back as `x` without its sign. -/
def readsBack (x : Binary64) (d : Decimal) : Bool :=
  (ofDecimal false d.digits d.exponent).word == x.word % Nat.pow 2 63

/-- The neighbour of `x` that cuts `drop` digits from its expansion and reads back, if one does. -/
def candidate? (tie : Tie) (x : Binary64) (drop : Nat) : Option Decimal :=
  let step := Nat.pow 10 drop
  let low := x.exactDecimal.digits / step
  let rest := 2 * (x.exactDecimal.digits % step)
  let exponent := x.exactDecimal.exponent + drop
  let below : Decimal := ⟨low, exponent⟩
  let above : Decimal := ⟨low + 1, exponent⟩
  if x.readsBack below then
    if x.readsBack above then
      if rest < step then some below
      else if step < rest then some above
      else match tie with
        | .up => some above
        | .toEven => some (if low % 2 = 0 then below else above)
    else some below
  else if x.readsBack above then some above
  else none

/-- The shortest digits of a finite number that read back, without the sign. -/
def shortest (tie : Tie) (x : Binary64) : Decimal :=
  if x.units = 0 then ⟨0, 0⟩
  else
    let length := digitCount x.exactDecimal.digits
    let found := (List.range' 1 length).findSome? fun n => x.candidate? tie (length - n)
    (found.getD x.exactDecimal).reduce

end Binary64

/-! ## Layouts -/

/-- The choices that turn digits into text. -/
structure Layout where
  /-- Which powers of ten of the leading digit are written without an exponent. -/
  plain : Int → Bool
  /-- Whether a whole number written without an exponent ends in `.0`. -/
  keepsPoint : Bool
  tie : Tie

namespace Layout

variable (l : Layout)

/-- Digits without an exponent. -/
def plainText (ds : List Char) (exponent : Int) : List Char :=
  if 0 ≤ exponent then
    ds ++ List.replicate exponent.toNat '0' ++ (if l.keepsPoint then ['.', '0'] else [])
  else
    let places := (-exponent).toNat
    if places < ds.length then
      ds.take (ds.length - places) ++ '.' :: ds.drop (ds.length - places)
    else '0' :: '.' :: (List.replicate (places - ds.length) '0' ++ ds)

/-- Digits with one before the point, and the power of ten with its sign. -/
def scientificText (ds : List Char) (leading : Int) : List Char :=
  ds.take 1 ++ (if ds.length ≤ 1 then [] else '.' :: ds.drop 1)
    ++ 'e' :: (if leading < 0 then '-' else '+') :: Nat.toDigits 10 leading.natAbs

/-- The text of a finite number. -/
def render (x : Binary64) : List Char :=
  let d := x.shortest l.tie
  let ds := Nat.toDigits 10 d.digits
  let leading := d.exponent + ds.length - 1
  let body := if l.plain leading then l.plainText ds d.exponent else scientificText ds leading
  if x.negative then '-' :: body else body

end Layout

end AnnotationLookup
