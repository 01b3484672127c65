/-
Products and quotients of floating-point numbers.

* `Binary64.mul`, `Binary64.div` — the number nearest to the exact result.

Design notes: the exact result of finite numbers is a quotient of integers times a power of two, and
is rounded once.
-/
import StructuralMatching.Binary64.Basic

namespace StructuralMatching.Binary64

/-- An infinity. -/
def infinity (negative : Bool) : Binary64 := ofMagnitude negative BinaryFormat.double.infinity

/-- The number nearest to `± num / den * 2 ^ exponent`. -/
def ofRatio (negative : Bool) (num den : Nat) (exponent : Int) : Binary64 :=
  let (n, d) := scaleRatio num den exponent
  ofMagnitude negative (BinaryFormat.double.roundRatio n d)

/-- The product of two numbers. -/
def mul (x y : Binary64) : Binary64 :=
  let negative := x.isNegative != y.isNegative
  if x.isNaN || y.isNaN then nan
  else if x.isInfinite || y.isInfinite then
    if x.isZero || y.isZero then nan else infinity negative
  else ofRatio negative (x.significand * y.significand) 1 (x.exponent + y.exponent)

/-- The quotient of two numbers. -/
def div (x y : Binary64) : Binary64 :=
  let negative := x.isNegative != y.isNegative
  if x.isNaN || y.isNaN then nan
  else if x.isInfinite then if y.isInfinite then nan else infinity negative
  else if y.isInfinite then ofMagnitude negative 0
  else if y.isZero then if x.isZero then nan else infinity negative
  else ofRatio negative x.significand y.significand (x.exponent - y.exponent)

end StructuralMatching.Binary64
