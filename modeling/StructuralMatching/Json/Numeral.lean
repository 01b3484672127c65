/-
Numbers in a JSON text.

* `Numeral` — a number as it is written, by its digits;
* `Numeral.toJson?` — what a numeral means: an integer if it has neither a point nor a power of ten
  and fits into 64 bits, else a floating-point number; minus zero is a floating-point number.

Design notes: a floating-point number is made from a whole number of 64 bits and a power of ten.
The whole number takes digits as long as it has room for them.  It is rounded, and then multiplied
or divided by the rounded power, which rounds once more, so the result need not be the nearest one.
Powers beyond the range of the format are divided by in portions.  A number that is too large means
nothing.
-/
import StructuralMatching.Binary64.Arithmetic
import StructuralMatching.Json.Basic

namespace StructuralMatching

/-- A number as it is written. -/
structure Numeral where
  negative : Bool
  whole : List Nat
  /-- The digits after the point, if there is a point. -/
  places : Option (List Nat)
  /-- The power of ten, if there is one: whether it has a minus sign, and its digits. -/
  exponent : Option (Bool × List Nat)
deriving DecidableEq, Repr

namespace Numeral

/-- The number that decimal digits stand for. -/
def valueOfDigits (digits : List Nat) : Nat := digits.foldl (fun n d => 10 * n + d) 0

/-- Appends digits to a number as long as it has 64 bits; the answer has the digits that are left. -/
def absorb (n : Nat) : List Nat → Nat × List Nat
  | [] => (n, [])
  | d :: ds => if 10 * n + d < 2 ^ 64 then absorb (10 * n + d) ds else (n, d :: ds)

/-- The greatest power of ten in the range of the format. -/
def maxPower : Nat := 308

/-- The number nearest to `10 ^ k`. -/
def powerOfTen (k : Nat) : Binary64 := .ofDecimal false 1 k

/-- A number divided by `10 ^ k`, in portions. -/
def scaleDown (x : Binary64) (k : Nat) : Binary64 :=
  if k ≤ maxPower then x.div (powerOfTen k)
  else if x.isZero then x
  else scaleDown (x.div (powerOfTen maxPower)) (k - maxPower)
termination_by k
decreasing_by simp only [maxPower] at *; omega

/-- A number multiplied by `10 ^ k`, if the result is in range. -/
def scaleUp? (x : Binary64) (k : Nat) : Option Binary64 :=
  if k ≤ maxPower then
    let y := x.mul (powerOfTen k)
    if y.isFinite then some y else none
  else if x.isZero then some x
  else none

/-- The number `± digits * 10 ^ shift`, if it is in range. -/
def scaled? (negative : Bool) (digits : Nat) (shift : Int) : Option Binary64 :=
  let x := Binary64.ofDecimal negative digits 0
  match shift with
  | .ofNat k => scaleUp? x k
  | .negSucc k => some (scaleDown x (k + 1))

/-- The floating-point number that a numeral stands for, if it is in range.  A power of ten of more
than 31 bits counts as too large or too small without a look at the digits. -/
def toFloat? (n : Numeral) : Option Binary64 :=
  let (front, dropped) := absorb 0 n.whole
  let places := n.places.getD []
  let (digits, left) := absorb front places
  let shift : Int := dropped.length - (places.length - left.length : Nat)
  match n.exponent with
  | none => scaled? n.negative digits shift
  | some (negative, ds) =>
    let power := valueOfDigits ds
    if 2 ^ 31 ≤ power then
      if negative || digits = 0 then some (.ofMagnitude n.negative 0) else none
    else scaled? n.negative digits (if negative then shift - power else shift + power)

/-- The integer of 64 bits that a numeral stands for, unless it is written as a floating-point
number. -/
def toWhole? (n : Numeral) : Option Json :=
  if n.places.isSome || n.exponent.isSome then none
  else
    let m := valueOfDigits n.whole
    if !n.negative then Json.ofNatural? m
    else if 0 < m ∧ m ≤ 2 ^ 63 then some (.int (Int64.ofInt (-(m : Int))))
    else none

/-- What a numeral means. -/
def toJson? (n : Numeral) : Option Json := n.toWhole? <|> n.toFloat?.bind Json.ofFloat?

end Numeral

end StructuralMatching
