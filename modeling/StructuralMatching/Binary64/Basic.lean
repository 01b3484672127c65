/-
Floating-point numbers of 64 bits, as words.

* `Binary64` — a word of the 64-bit format;
* `Binary64.equal` — numeric equality: not-a-number differs from everything, the two zeros agree;
* `Binary64.ofInt` — the number nearest to an integer;
* `Binary64.ofDecimal` — the number nearest to a decimal;
* `Binary64.narrow`, `Binary64.widen` — the passage to the 32-bit format and back.

Design notes: nothing here goes through machine arithmetic, so that every fact about these numbers
is a fact about natural numbers.  `BEq` is numeric equality; equality of words is `=`.
-/
import StructuralMatching.Binary64.Format

namespace StructuralMatching

/-- A floating-point number, by the word that stands for it. -/
structure Binary64 where
  bits : UInt64

namespace Binary64

/-- The word as a natural number. -/
def word (x : Binary64) : Nat := x.bits.toNat

/-- The number with a given sign and magnitude word. -/
def ofMagnitude (negative : Bool) (magnitude : Nat) : Binary64 :=
  ⟨UInt64.ofNat ((if negative then BinaryFormat.double.signWeight else 0) + magnitude)⟩

def isNegative (x : Binary64) : Bool := BinaryFormat.double.isNegative x.word

def isNaN (x : Binary64) : Bool := BinaryFormat.double.isNaN x.word

def isInfinite (x : Binary64) : Bool := BinaryFormat.double.isInfinite x.word

def isFinite (x : Binary64) : Bool := BinaryFormat.double.isFinite x.word

def isZero (x : Binary64) : Bool := BinaryFormat.double.magnitude x.word == 0

/-- A finite number is `± significand * 2 ^ exponent`. -/
def significand (x : Binary64) : Nat := BinaryFormat.double.significand x.word

def exponent (x : Binary64) : Int := BinaryFormat.double.exponent x.word

/-- Numeric equality. -/
def equal (x y : Binary64) : Bool :=
  !x.isNaN && !y.isNaN && (x.bits == y.bits || (x.isZero && y.isZero))

instance : BEq Binary64 := ⟨equal⟩

/-- The quiet not-a-number without further payload. -/
def nan : Binary64 := ⟨0x7ff8000000000000⟩

/-- The number nearest to an integer. -/
def ofInt (n : Int) : Binary64 :=
  ofMagnitude (n < 0) (BinaryFormat.double.roundRatio n.natAbs 1)

/-- How many decimal digits a positive number has. -/
def decimalWidth (n : Nat) : Nat :=
  if n < 10 then 1 else decimalWidth (n / 10) + 1
termination_by n

/-- The number nearest to `± digits * 10 ^ exponent`; beyond the range of the format that is an
infinity or a zero, which is answered without computing the power. -/
def ofDecimal (negative : Bool) (digits : Nat) (exponent : Int) : Binary64 :=
  if digits = 0 then ofMagnitude negative 0
  else if 310 < exponent + decimalWidth digits then
    ofMagnitude negative BinaryFormat.double.infinity
  else if exponent + decimalWidth digits < -330 then ofMagnitude negative 0
  else
    match exponent with
    | .ofNat k => ofMagnitude negative (BinaryFormat.double.roundRatio (digits * 10 ^ k) 1)
    | .negSucc k => ofMagnitude negative (BinaryFormat.double.roundRatio digits (10 ^ (k + 1)))

/-- The 32-bit word of the nearest number; a not-a-number keeps its sign and the leading bits of
its fraction, and is quiet. -/
def narrow (x : Binary64) : Nat :=
  let sign := if x.isNegative then BinaryFormat.single.signWeight else 0
  let magnitude :=
    if x.isNaN then
      BinaryFormat.single.infinity +
        (BinaryFormat.double.fraction x.word / 2 ^ 29 ||| BinaryFormat.single.quietBit)
    else if x.isInfinite then BinaryFormat.single.infinity
    else
      let (num, den) := scaleRatio x.significand 1 x.exponent
      BinaryFormat.single.roundRatio num den
  sign + magnitude

/-- The number that a 32-bit word stands for; a not-a-number keeps its sign and fraction, and is
quiet. -/
def widen (w : Nat) : Binary64 :=
  let f := BinaryFormat.single
  ofMagnitude (f.isNegative w) <|
    if f.isNaN w then
      BinaryFormat.double.infinity + (f.fraction w * 2 ^ 29 ||| BinaryFormat.double.quietBit)
    else if f.isInfinite w then BinaryFormat.double.infinity
    else
      let (num, den) := scaleRatio (f.significand w) 1 (f.exponent w)
      BinaryFormat.double.roundRatio num den

end Binary64

end StructuralMatching
