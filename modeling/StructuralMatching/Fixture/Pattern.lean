/-
Recorded cases for a pattern.

* `PatternFixture` — a description of a pattern, and values with what they are expected to bind;
* `PatternFixture.judge` — the first thing that is not as expected, if there is one;
* `PatternFixture.text` — all that is said about it.

Design notes: the description is kept as a tree, because it may be the point of a fixture that it
describes nothing.  What is said about such a tree is up to whoever reads trees, and comes as an
argument.  Each case is judged for itself.
-/
import StructuralMatching.Config.Pattern
import StructuralMatching.Fixture.Report
import StructuralMatching.Pattern.Compile
import StructuralMatching.Value.Explicit

namespace StructuralMatching

/-- A value, and what it is expected to bind; if nothing is, it is expected not to match. -/
structure PatternCase where
  name : String
  value : Json
  /-- Stands in place of the value if it is given. -/
  bytes : Option (List UInt8)
  expect : Option (List Json)

namespace PatternCase

/-- The value that is matched. -/
def candidate (c : PatternCase) : Value :=
  match c.bytes with
  | some content => .bytes content
  | none => .ofJson c.value

/-- What the value is expected to bind. -/
def expected (c : PatternCase) : Option (List Value) := c.expect.map (·.map Value.ofJson)

end PatternCase

/-- A description of a pattern, and cases for it. -/
structure PatternFixture where
  name : String
  description : String
  pattern : Json
  cases : List PatternCase
  /-- Whether the description is expected to be of no use. -/
  expectsError : Bool

/-- What is not as expected. -/
inductive PatternFailure where
  | compiled
  | unreadable (why : String)
  | malformed (e : PatternError)
  | wrongBindings (case : String) (expected actual : Option (List Value))

namespace PatternFixture

/-- What a case finds, if that is not as expected. -/
def caseFailure? (m : Matcher) (c : PatternCase) : Option PatternFailure :=
  let actual := m.bind? .start c.candidate
  if actual == c.expected then none else some (.wrongBindings c.name c.expected actual)

/-- The matcher that the description leads to, or why it leads to none. -/
def matcher (complaint : Json → String) (f : PatternFixture) : Except PatternFailure Matcher :=
  match Pattern.ofJson? f.pattern with
  | none => .error (.unreadable (complaint f.pattern))
  | some p =>
    match p.compile with
    | .error e => .error (.malformed e)
    | .ok m => .ok m

/-- The first thing that is not as expected. -/
def judge (complaint : Json → String) (f : PatternFixture) : Option PatternFailure :=
  match f.matcher complaint with
  | .ok m => if f.expectsError then some .compiled else f.cases.findSome? (caseFailure? m)
  | .error e => if f.expectsError then none else some e

/-- The first thing that is not as expected, with no more to say about a tree than that it is of no
use. -/
def failure? (f : PatternFixture) : Option PatternFailure := f.judge fun _ => "not a pattern"

/-- The message about a failure. -/
def report (f : PatternFixture) : PatternFailure → String
  | .compiled => s!"Fixture '{f.name}' expected error but pattern compiled"
  | .unreadable why => s!"Fixture '{f.name}' pattern parse failed: {why}"
  | .malformed e => s!"Fixture '{f.name}' pattern compile failed: {e.message}"
  | .wrongBindings case expected actual =>
    let expected := Value.explicitBindings expected
    let actual := Value.explicitBindings actual
    s!"Fixture '{f.name}' case '{case}': expected {expected}, got {actual}"

/-- All that is said about a failure. -/
def text (f : PatternFixture) (e : PatternFailure) : String :=
  failureText (f.report e) <|
    match e with
    | .wrongBindings _ expected actual =>
      some (Value.explicitBindings actual, Value.explicitBindings expected)
    | _ => none

end PatternFixture

end StructuralMatching
