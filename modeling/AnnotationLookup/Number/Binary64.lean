/-!
# Binary64 numbers

A number of the IEEE 754 binary64 format is its 64-bit word. The magnitude of a finite number is a
natural multiple of the smallest positive number, so all arithmetic on magnitudes is exact. Powers
are the built-in `Nat.pow`, which means the same whatever else is imported.

* `Binary64`, with its fields `negative`, `biased`, `fraction`;
* `Binary64.units`: the magnitude in units of `2 ^ -1074`;
* `Binary64.same`: numerical equality, under which a NaN differs from itself and the zeros agree;
* `Binary64.ofRatio`, `Binary64.ofDecimal`, `Binary64.ofInt`: the nearest number, ties to the even
  significand.
-/

namespace AnnotationLookup

/-- A binary64 number, as its word. -/
structure Binary64 where
  bits : UInt64
deriving DecidableEq, Inhabited, Repr

namespace Binary64

/-! ## Fields of the word -/

section Fields

variable (x : Binary64)

/-- The bits as a number. -/
def word : Nat := x.bits.toNat

/-- The sign bit is set. -/
def negative : Bool := decide (Nat.pow 2 63 ≤ x.word)

/-- The exponent field: `0` for zeros and subnormal numbers, `2047` for infinities and NaNs. -/
def biased : Nat := x.word / Nat.pow 2 52 % Nat.pow 2 11

/-- The last 52 bits. -/
def fraction : Nat := x.word % Nat.pow 2 52

/-- Neither infinite nor NaN. -/
def isFinite : Bool := x.biased != 2047

/-- Not a number. -/
def isNaN : Bool := x.biased == 2047 && x.fraction != 0

/-- The integer significand, with the leading bit that the word of a normal number omits. -/
def significand : Nat := if x.biased = 0 then x.fraction else x.fraction + Nat.pow 2 52

/-- The magnitude of a finite number, in units of `2 ^ -1074`. -/
def units : Nat := x.significand * Nat.pow 2 (x.biased - 1)

/-- Zero of either sign. -/
def isZero : Bool := x.biased == 0 && x.fraction == 0

/-- Numerical equality: no NaN equals anything, and the two zeros are equal. -/
def same (y : Binary64) : Bool :=
  !x.isNaN && !y.isNaN && (x.bits == y.bits || x.isZero && y.isZero)

end Fields

/-! ## Rounding to nearest -/

/-- The number with this sign and this word without sign. -/
def ofWord (negative : Bool) (word : Nat) : Binary64 :=
  ⟨UInt64.ofNat (if negative then Nat.pow 2 63 + word else word)⟩

/-- The word of positive infinity. -/
def infinityWord : Nat := 2047 * Nat.pow 2 52

/-- The quotient rounded to the nearest integer, a half to the even one. -/
def roundDiv (num den : Nat) : Nat :=
  let q := num / den
  let twice := 2 * (num % den)
  if twice < den then q else if den < twice then q + 1 else q + q % 2

/--
The word of the number nearest to `num / den` units. Above `2 ^ 53` units the significand keeps its
53 leading bits; a significand that rounds up to `2 ^ 53` carries into the exponent field.
-/
def wordOfRatio (num den : Nat) : Nat :=
  let scale := (num / den).log2 - 52
  let word := scale * Nat.pow 2 52 + roundDiv num (den * Nat.pow 2 scale)
  min word infinityWord

/-- The number nearest to `num / den` units; what lies beyond every finite number is infinite. -/
def ofRatio (negative : Bool) (num den : Nat) : Binary64 :=
  ofWord negative (wordOfRatio num den)

/-- How many decimal digits a number has. -/
def digitCount (n : Nat) : Nat := (Nat.toDigits 10 n).length

/--
The number nearest to `digits · 10 ^ exponent`. A value of at least `10 ^ 310` is infinite and one
below `10 ^ -330` is zero, so the powers of ten that are computed stay in proportion to the digits.
-/
def ofDecimal (negative : Bool) (digits : Nat) (exponent : Int) : Binary64 :=
  let top := digitCount digits + exponent
  if digits = 0 ∨ top < -330 then ofWord negative 0
  else if 310 < top then ofWord negative infinityWord
  else if 0 ≤ exponent then ofRatio negative (digits * Nat.pow 10 exponent.toNat * Nat.pow 2 1074) 1
  else ofRatio negative (digits * Nat.pow 2 1074) (Nat.pow 10 (-exponent).toNat)

/-- The number nearest to an integer. -/
def ofInt (n : Int) : Binary64 := ofDecimal (n < 0) n.natAbs 0

end Binary64

end AnnotationLookup
