/-
Reading JSON text.

* `JsonSource.parse?` — the parts of a text, if the text is one JSON value with nothing but blanks
  around it;
* `Json.parse?` — the tree of a text, if its arrays and objects are not nested too deeply.

Design notes: the reader takes characters off the front of a list.  Every step of it that calls
another takes at least one, so the number of characters bounds the number of steps.
-/
import StructuralMatching.Json.Source

namespace StructuralMatching

namespace Json

/-- The number that a digit of base 16 stands for. -/
def hexValue? (c : Char) : Option Nat :=
  if '0' ≤ c ∧ c ≤ '9' then some (c.toNat - 48)
  else if 'a' ≤ c ∧ c ≤ 'f' then some (c.toNat - 87)
  else if 'A' ≤ c ∧ c ≤ 'F' then some (c.toNat - 55)
  else none

/-- The number that four digits of base 16 stand for. -/
def hexUnit? (a b c d : Char) : Option Nat := do
  return (((← hexValue? a) * 16 + (← hexValue? b)) * 16 + (← hexValue? c)) * 16 + (← hexValue? d)

/-- The character that a backslash and a letter stand for. -/
def unescape? (c : Char) : Option Char :=
  match c with
  | '"' => some '"'
  | '\\' => some '\\'
  | '/' => some '/'
  | 'b' => some (Char.ofNat 8)
  | 'f' => some (Char.ofNat 12)
  | 'n' => some '\n'
  | 'r' => some '\r'
  | 't' => some '\t'
  | _ => none

end Json

namespace JsonSource

/-- Reads the rest of a string, after `read` in reverse, up to its closing quote. -/
def scanString (read : List Piece) : List Char → Option (List Piece × List Char)
  | [] => none
  | '"' :: rest => some (read.reverse, rest)
  | '\\' :: 'u' :: a :: b :: c :: d :: rest =>
    match Json.hexUnit? a b c d with
    | some n => scanString (.unit n :: read) rest
    | none => none
  | '\\' :: c :: rest =>
    match Json.unescape? c with
    | some c => scanString (.char c :: read) rest
    | none => none
  | c :: rest => if c.toNat < 32 then none else scanString (.char c :: read) rest

/-- The number that a decimal digit stands for. -/
def digitValue (c : Char) : Nat := c.toNat - 48

/-- The digits at the front of a text, of which there has to be one. -/
def scanDigits (cs : List Char) : Option (List Nat × List Char) :=
  let digits := cs.takeWhile Char.isDigit
  if digits.isEmpty then none else some (digits.map digitValue, cs.dropWhile Char.isDigit)

/-- The decimal places at the front of a text, if it begins with a point. -/
def scanFraction (cs : List Char) : Option (Option (List Nat) × List Char) :=
  match cs with
  | '.' :: rest => do
    let (digits, rest) ← scanDigits rest
    return (some digits, rest)
  | _ => some (none, cs)

/-- The power of ten at the front of a text, if it begins with the letter `e`. -/
def scanExponent (cs : List Char) : Option (Option (Bool × List Nat) × List Char) :=
  match cs with
  | c :: rest =>
    if c = 'e' ∨ c = 'E' then do
      let (negative, rest) := match rest with
        | '-' :: rest => (true, rest)
        | '+' :: rest => (false, rest)
        | _ => (false, rest)
      let (digits, rest) ← scanDigits rest
      return (some (negative, digits), rest)
    else some (none, cs)
  | [] => some (none, [])

/-- Reads a number.  Only a zero begins with a zero. -/
def scanNumber (cs : List Char) : Option (JsonSource × List Char) := do
  let (negative, cs) := match cs with
    | '-' :: rest => (true, rest)
    | _ => (false, cs)
  let (whole, rest) ← scanDigits cs
  if 1 < whole.length && whole.head? == some 0 then none
  let (places, rest) ← scanFraction rest
  let (exponent, rest) ← scanExponent rest
  return (number ⟨negative, whole, places, exponent⟩, rest)

/-- The text after the blanks at its front. -/
def skipBlanks (cs : List Char) : List Char :=
  cs.dropWhile fun c => c = ' ' ∨ c = '\n' ∨ c = '\t' ∨ c = '\r'

mutual

/-- Reads a value. -/
def scanValue : Nat → List Char → Option (JsonSource × List Char)
  | 0, _ => none
  | fuel + 1, cs =>
    match skipBlanks cs with
    | 'n' :: 'u' :: 'l' :: 'l' :: rest => some (null, rest)
    | 't' :: 'r' :: 'u' :: 'e' :: rest => some (bool true, rest)
    | 'f' :: 'a' :: 'l' :: 's' :: 'e' :: rest => some (bool false, rest)
    | '"' :: rest => (scanString [] rest).map fun (pieces, rest) => (string pieces, rest)
    | '[' :: rest =>
      match skipBlanks rest with
      | ']' :: rest => some (array [], rest)
      | rest => (scanItems fuel rest).map fun (items, rest) => (array items, rest)
    | '{' :: rest =>
      match skipBlanks rest with
      | '}' :: rest => some (object [], rest)
      | rest => (scanEntries fuel rest).map fun (entries, rest) => (object entries, rest)
    | cs => scanNumber cs

/-- Reads the items of an array up to its closing bracket. -/
def scanItems : Nat → List Char → Option (List JsonSource × List Char)
  | 0, _ => none
  | fuel + 1, cs => do
    let (item, rest) ← scanValue fuel cs
    match skipBlanks rest with
    | ']' :: rest => return ([item], rest)
    | ',' :: rest =>
      let (items, rest) ← scanItems fuel rest
      return (item :: items, rest)
    | _ => none

/-- Reads the entries of an object up to its closing brace. -/
def scanEntries : Nat → List Char → Option (List (List Piece × JsonSource) × List Char)
  | 0, _ => none
  | fuel + 1, cs => do
    match skipBlanks cs with
    | '"' :: rest =>
      let (key, rest) ← scanString [] rest
      match skipBlanks rest with
      | ':' :: rest =>
        let (value, rest) ← scanValue fuel rest
        match skipBlanks rest with
        | '}' :: rest => return ([(key, value)], rest)
        | ',' :: rest =>
          let (entries, rest) ← scanEntries fuel rest
          return ((key, value) :: entries, rest)
        | _ => none
      | _ => none
    | _ => none

end

/-- The parts of a text. -/
def parse? (text : String) : Option JsonSource :=
  let cs := text.toList
  match scanValue (cs.length + 1) cs with
  | some (s, rest) => if (skipBlanks rest).isEmpty then some s else none
  | none => none

end JsonSource

namespace Json

/-- How deeply arrays and objects may be nested in a tree that is read. -/
def maxNesting : Nat := 127

/-- The tree of a text. -/
def parse? (text : String) : Option Json := do
  let s ← JsonSource.parse? text
  if s.nesting ≤ maxNesting then s.toJson? else none

end Json

end StructuralMatching
