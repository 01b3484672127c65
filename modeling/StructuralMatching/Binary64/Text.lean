/-
Decimal text of floating-point numbers.

* `Decimal` — a coefficient and a power of ten;
* `Binary64.shortest` — the decimal with the fewest digits among those that are read back as the
  number, and of these the nearest one;
* `FloatLayout` — the choices that turn such a decimal into text;
* `Binary64.render` — the text of a number under a layout.

Design notes: the numbers that are read back as `x` form an interval around it, whose ends belong
to it when the significand of `x` is even.  If any point of a decimal grid lies in the interval,
one of the two grid points around `x` does, so it is enough to look at these two on the grids of
one, two, … seventeen digits.
-/
import StructuralMatching.Binary64.Basic

namespace StructuralMatching

/-- The number `coefficient * 10 ^ exponent`. -/
structure Decimal where
  coefficient : Nat
  exponent : Int
deriving DecidableEq

/-- Which of two decimals is taken when the number lies in the middle of them. -/
inductive Tie where
  | upper
  | even

namespace Binary64

/-- The decimals that are read back as one number, as a fraction of a common denominator: those
between `low` and `high`, with the ends if `closed`. -/
structure ReadBack where
  value : Nat
  low : Nat
  high : Nat
  denominator : Nat
  closed : Bool

/-- The decimals that are read back as a finite number other than zero, by its magnitude.  Below a
power of two the numbers lie closer together. -/
def readBack (x : Binary64) : ReadBack :=
  let (unit, den) := scaleRatio 1 4 x.exponent
  let m := x.significand
  let below := if BinaryFormat.double.fraction x.word = 0 ∧ 1 < BinaryFormat.double.field x.word
    then 1 else 2
  ⟨4 * m * unit, (4 * m - below) * unit, (4 * m + 2) * unit, den, m % 2 == 0⟩

/-- The exponent `k` with `10 ^ (k - 1) ≤ num / den < 10 ^ k`. -/
def decimalPoint (num den : Nat) : Int :=
  if den ≤ num then decimalWidth (num / den)
  else 1 - (decimalWidth ((den - 1) / num) : Int)

/-- Both sides of a comparison with multiples of `10 ^ unit`: the factor for the value and the one
for the multiple. -/
def gridFactors : Int → Nat × Nat
  | .ofNat k => (1, 10 ^ k)
  | .negSucc k => (10 ^ (k + 1), 1)

/-- The multiple of `10 ^ unit` next to the value that is read back as it, if there is one. -/
def ReadBack.onGrid? (r : ReadBack) (tie : Tie) (unit : Int) : Option Nat :=
  let (a, b) := gridFactors unit
  let value := r.value * a
  let step := r.denominator * b
  let lower := value / step
  let lowerIn := r.low * a < lower * step || (r.closed && r.low * a == lower * step)
  let upperIn := (lower + 1) * step < r.high * a || (r.closed && (lower + 1) * step == r.high * a)
  let twice := 2 * (value % step)
  let nearest :=
    if twice < step then lower
    else if step < twice then lower + 1
    else match tie with
      | .upper => lower + 1
      | .even => lower + lower % 2
  match lowerIn, upperIn with
  | true, true => some nearest
  | true, false => some lower
  | false, true => some (lower + 1)
  | false, false => none

/-- The shortest decimal that is read back as a finite number other than zero, by its magnitude. -/
def shortest (x : Binary64) (tie : Tie) : Decimal :=
  let r := x.readBack
  let point := decimalPoint r.value r.denominator
  let onGrid (places : Nat) : Option Decimal :=
    let unit := point - places
    (r.onGrid? tie unit).map fun c =>
      if c = 10 ^ places then ⟨1, unit + places⟩ else ⟨c, unit⟩
  ((List.range' 1 17).findSome? onGrid).getD ⟨0, 0⟩

end Binary64

/-- How a number is written: where the decimal point may stand for the digits to be written out
around it, what follows a whole number so written, whether a power of ten shows its plus sign, and
the words for what is not finite. -/
structure FloatLayout where
  tie : Tie
  positional : Int → Bool
  wholeSuffix : String
  plusSign : String
  nan : String
  infinity : String

namespace Decimal

/-- The digits of the coefficient. -/
def digits (d : Decimal) : List Char := Nat.toDigits 10 d.coefficient

/-- The exponent `k` for which the decimal is `0.d₁d₂… * 10 ^ k`. -/
def point (d : Decimal) : Int := d.exponent + d.digits.length

/-- The digits written out around the decimal point. -/
def positional (d : Decimal) (wholeSuffix : String) : String :=
  let digits := d.digits
  match d.point with
  | .ofNat k =>
    if digits.length ≤ k then
      String.ofList (digits ++ List.replicate (k - digits.length) '0') ++ wholeSuffix
    else if k = 0 then "0." ++ String.ofList digits
    else String.ofList (digits.take k) ++ "." ++ String.ofList (digits.drop k)
  | .negSucc k => "0." ++ String.ofList (List.replicate (k + 1) '0' ++ digits)

/-- One digit before the decimal point and a power of ten. -/
def scientific (d : Decimal) (plusSign : String) : String :=
  let power := d.point - 1
  let mantissa := match d.digits with
    | [] => ""
    | [c] => String.ofList [c]
    | c :: cs => String.ofList (c :: '.' :: cs)
  mantissa ++ "e" ++ (if power < 0 then "" else plusSign) ++ toString power

end Decimal

/-- The text of a number under a layout. -/
def Binary64.render (layout : FloatLayout) (x : Binary64) : String :=
  if x.isNaN then layout.nan
  else
    (if x.isNegative then "-" else "") ++
      if x.isInfinite then layout.infinity
      else if x.isZero then "0" ++ layout.wholeSuffix
      else
        let d := x.shortest layout.tie
        if layout.positional d.point then d.positional layout.wholeSuffix
        else d.scientific layout.plusSign

end StructuralMatching
