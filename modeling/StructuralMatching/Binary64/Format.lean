/-
Binary floating-point formats and rounding to them.

A word of a format is a natural number: a sign bit, a field of biased exponent and a fraction, from
the most significant bit down.

* `BinaryFormat.single`, `BinaryFormat.double` — the 32-bit and the 64-bit format;
* `BinaryFormat.field`, `fraction`, `isNegative` — the three parts of a word;
* `BinaryFormat.significand`, `exponent` — a finite word stands for `± significand * 2 ^ exponent`;
* `roundQuotient` — division to the nearest integer, a half going to the even neighbour;
* `BinaryFormat.roundRatio` — the magnitude word nearest to a quotient of natural numbers.

Design notes: a magnitude word counts the representable magnitudes from zero upwards, so rounding
picks a unit `2 ^ q`, rounds the quotient to a multiple `m` of it, and answers the word of the
first magnitude with that unit, advanced by `m`.  A carry out of the significand lands on the next
exponent by itself, and the same sum serves numbers below the normal range.
-/
import StructuralMatching.Powers

namespace StructuralMatching

/-- A binary format: the width of its fraction and of its exponent field. -/
structure BinaryFormat where
  fractionBits : Nat
  exponentBits : Nat

namespace BinaryFormat

/-- The 32-bit format. -/
def single : BinaryFormat := ⟨23, 8⟩

/-- The 64-bit format. -/
def double : BinaryFormat := ⟨52, 11⟩

/-- The exponent of the unit in which the numbers nearest to zero are counted. -/
def leastExponent (f : BinaryFormat) : Int :=
  2 - 2 ^ (f.exponentBits - 1) - f.fractionBits

/-- The field that infinities and not-a-numbers carry. -/
def topField (f : BinaryFormat) : Nat := 2 ^ f.exponentBits - 1

/-- The magnitude word of infinity. -/
def infinity (f : BinaryFormat) : Nat := f.topField * 2 ^ f.fractionBits

/-- The weight of the sign bit. -/
def signWeight (f : BinaryFormat) : Nat := 2 ^ (f.fractionBits + f.exponentBits)

/-- The leading fraction bit, which marks a quiet not-a-number. -/
def quietBit (f : BinaryFormat) : Nat := 2 ^ (f.fractionBits - 1)

/-- Whether the sign bit of a word is set. -/
def isNegative (f : BinaryFormat) (w : Nat) : Bool := w / f.signWeight % 2 == 1

/-- A word without its sign bit. -/
def magnitude (f : BinaryFormat) (w : Nat) : Nat := w % f.signWeight

/-- The biased exponent of a word. -/
def field (f : BinaryFormat) (w : Nat) : Nat := w / 2 ^ f.fractionBits % 2 ^ f.exponentBits

/-- The fraction of a word. -/
def fraction (f : BinaryFormat) (w : Nat) : Nat := w % 2 ^ f.fractionBits

/-- Whether a word is not a number. -/
def isNaN (f : BinaryFormat) (w : Nat) : Bool := f.infinity < f.magnitude w

/-- Whether a word is an infinity. -/
def isInfinite (f : BinaryFormat) (w : Nat) : Bool := f.magnitude w == f.infinity

/-- Whether a word stands for a number. -/
def isFinite (f : BinaryFormat) (w : Nat) : Bool := f.magnitude w < f.infinity

/-- The integer part of a finite word's value, in units of `2 ^ exponent`. -/
def significand (f : BinaryFormat) (w : Nat) : Nat :=
  if f.field w = 0 then f.fraction w else 2 ^ f.fractionBits + f.fraction w

/-- The exponent of the unit of a finite word. -/
def exponent (f : BinaryFormat) (w : Nat) : Int :=
  f.leastExponent + (max (f.field w) 1 - 1 : Nat)

end BinaryFormat

/-- The quotient of two numbers as an integer: the nearest one, and the even one of two. -/
def roundQuotient (num den : Nat) : Nat :=
  let quotient := num / den
  let twice := 2 * (num % den)
  if twice < den then quotient
  else if den < twice then quotient + 1
  else quotient + quotient % 2

/-- A quotient scaled by a power of two, as numerator and denominator. -/
def scaleRatio (num den : Nat) : Int → Nat × Nat
  | .ofNat k => (num * 2 ^ k, den)
  | .negSucc k => (num, den * 2 ^ (k + 1))

namespace BinaryFormat

/-- The exponent `e` with `2 ^ e ≤ num / den < 2 ^ (e + 1)`. -/
def binade (num den : Nat) : Int :=
  let e : Int := (num.log2 : Int) - den.log2
  let (n, d) := scaleRatio num den (-e)
  if n < d then e - 1 else e

/-- The magnitude word nearest to `num / den`, a half going to the even significand and whatever
lies beyond the largest number going to infinity. -/
def roundRatio (f : BinaryFormat) (num den : Nat) : Nat :=
  if num = 0 then 0
  else
    let unit := max (binade num den - f.fractionBits) f.leastExponent
    let (n, d) := scaleRatio num den (-unit)
    min ((unit - f.leastExponent).toNat * 2 ^ f.fractionBits + roundQuotient n d) f.infinity

end BinaryFormat

end StructuralMatching
