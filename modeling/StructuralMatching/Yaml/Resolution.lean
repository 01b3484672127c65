/-
What YAML trees mean.

* `Scalar.describe?` — the meaning of a scalar: a scalar in quotes is text, and one without them
  may be a number, a truth value or nothing;
* `Yaml.describe?` — a tree as a description;
* `Yaml.toJson?` — the data that a tree holds, if its keys are scalars; these are taken as they are
  written.

Design notes: a tree has no meaning if it has a number of more than 64 bits that is no
floating-point number.
-/
import StructuralMatching.Config.Description
import StructuralMatching.Json.Parse
import StructuralMatching.Yaml.Basic

namespace StructuralMatching

namespace Scalar

/-- The number that digits of a base stand for, if there are any and all of them are such. -/
def naturalOfDigits? (base : Nat) (digits : List Char) : Option Nat := do
  if digits.isEmpty then none
  let values ← digits.mapM Json.hexValue?
  if values.all (· < base) then return values.foldl (fun n d => base * n + d) 0 else none

/-- A sign in front of a text, and the text after it. -/
def splitSign : List Char → Bool × List Char
  | '-' :: rest => (true, rest)
  | '+' :: rest => (false, rest)
  | rest => (false, rest)

/-- The magnitude of a whole number.  In base 10 it does not begin with a zero. -/
def magnitude? : List Char → Option Nat
  | '0' :: 'x' :: digits => naturalOfDigits? 16 digits
  | '0' :: 'o' :: digits => naturalOfDigits? 8 digits
  | '0' :: 'b' :: digits => naturalOfDigits? 2 digits
  | ['0'] => some 0
  | '0' :: _ => none
  | digits => naturalOfDigits? 10 digits

/-- A whole number: whether it has a minus sign, and its magnitude. -/
def whole? (cs : List Char) : Option (Bool × Nat) :=
  let (negative, rest) := splitSign cs
  (magnitude? rest).map fun n => (negative, n)

/-- A whole number, if it has 64 bits. -/
def describeWhole? (negative : Bool) (n : Nat) : Option Description :=
  if negative then
    if n ≤ 2 ^ 63 then some (.negative (Int64.ofInt (-(n : Int)))) else none
  else if n < 2 ^ 64 then some (.natural (UInt64.ofNat n))
  else none

/-- Whether a whole number has 128 bits. -/
def hasWideWord (negative : Bool) (n : Nat) : Bool :=
  if negative then n ≤ 2 ^ 127 else n < 2 ^ 128

/-- A decimal number, with a point or a power of ten or both.  Digits alone that begin with a zero
are none. -/
def decimal? (cs : List Char) : Option Binary64 := do
  let (negative, cs) := splitSign cs
  let whole := cs.takeWhile Char.isDigit
  let rest := cs.dropWhile Char.isDigit
  if rest.isEmpty && 1 < whole.length && whole.head? == some '0' then none
  let (places, rest) := match rest with
    | '.' :: rest => (rest.takeWhile Char.isDigit, rest.dropWhile Char.isDigit)
    | rest => ([], rest)
  if whole.isEmpty && places.isEmpty then none
  let (exponent, rest) ← JsonSource.scanExponent rest
  if !rest.isEmpty then none
  let power : Int := match exponent with
    | some (negative, digits) =>
      let n := Numeral.valueOfDigits digits
      if negative then -n else n
    | none => 0
  let digits := Numeral.valueOfDigits ((whole ++ places).map JsonSource.digitValue)
  return Binary64.ofDecimal negative digits (power - places.length)

/-- The words for nothing. -/
def nullWords : List String := ["", "~", "null", "Null", "NULL"]

def trueWords : List String := ["true", "True", "TRUE"]

def falseWords : List String := ["false", "False", "FALSE"]

/-- The words for numbers that are infinite. -/
def infinityWords : List String :=
  [".inf", ".Inf", ".INF", "+.inf", "+.Inf", "+.INF", "-.inf", "-.Inf", "-.INF"]

/-- The words for what is not a number. -/
def nanWords : List String := [".nan", ".NaN", ".NAN"]

/-- The floating-point number that a text stands for, if it stands for one. -/
def float? (text : String) : Option Binary64 :=
  if text ∈ infinityWords then some (.infinity (text.toList.head? == some '-'))
  else if text ∈ nanWords then some .nan
  else (decimal? text.toList).filter Binary64.isFinite

/-- The meaning of text without quotes. -/
def describePlain? (text : String) : Option Description :=
  if text ∈ nullWords then some .null
  else if text ∈ trueWords then some (.bool true)
  else if text ∈ falseWords then some (.bool false)
  else
    match (whole? text.toList).filter fun w => hasWideWord w.1 w.2 with
    | some (negative, n) => describeWhole? negative n
    | none => some (((float? text).map .float).getD (.text text))

/-- The meaning of a scalar. -/
def describe? (s : Scalar) : Option Description :=
  if s.plain then describePlain? s.text else some (.text s.text)

/-- Whether a scalar means nothing. -/
def isAbsent (s : Scalar) : Bool := s.plain && s.text ∈ nullWords

end Scalar

namespace Yaml

/-- How deeply sequences and mappings may be nested in a tree that is read. -/
def maxNesting : Nat := 128

mutual

/-- A tree as a description. -/
def describe? : Yaml → Option Description
  | scalar s => s.describe?
  | sequence items => (describeItems? items).map .sequence
  | mapping entries => (describeEntries? entries).map .mapping
termination_by structural y => y

def describeItems? : List Yaml → Option (List Description)
  | [] => some []
  | y :: ys => do
    let d ← describe? y
    return d :: (← describeItems? ys)
termination_by structural ys => ys

def describeEntries? : List (Yaml × Yaml) → Option (List (Description × Description))
  | [] => some []
  | (key, y) :: entries => do
    let key ← describe? key
    let d ← describe? y
    return (key, d) :: (← describeEntries? entries)
termination_by structural entries => entries

end

mutual

/-- The data that a tree holds. -/
def toJson? : Yaml → Option Json
  | scalar s => s.describe?.bind Description.toJson?
  | sequence items => (toJsonItems? items).map .array
  | mapping entries => (toJsonEntries? entries).map .object
termination_by structural y => y

def toJsonItems? : List Yaml → Option (List Json)
  | [] => some []
  | y :: ys => do
    let j ← toJson? y
    return j :: (← toJsonItems? ys)
termination_by structural ys => ys

def toJsonEntries? : List (Yaml × Yaml) → Option (List (String × Json))
  | [] => some []
  | (key, y) :: entries => do
    let key ← asText? key
    let j ← toJson? y
    return (key, j) :: (← toJsonEntries? entries)
termination_by structural entries => entries

end

end Yaml

end StructuralMatching
