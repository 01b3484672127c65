/-
Recorded cases for a function given by clauses.

* `DispatchFixture` — the parameters of clauses, and arguments with what they are expected to lead
  to;
* `DispatchFixture.failure?` — the first thing that is not as expected, if there is one;
* `DispatchFixture.text` — all that is said about it.

Design notes: every clause answers its number and what the arguments bind.  A case that expects an
error expects nothing else.
-/
import StructuralMatching.Dispatch.Basic
import StructuralMatching.Fixture.Report
import StructuralMatching.Value.Explicit
import StructuralMatching.Value.Json

namespace StructuralMatching

/-- Arguments, and what is expected of a call with them. -/
structure DispatchCase where
  name : String
  args : List Json
  /-- The number of the clause that is expected to be selected. -/
  clause : Option Nat
  /-- What the arguments are expected to bind. -/
  bindings : Option (List Json)
  /-- The error that is expected. -/
  error : Option MatchErrorKind

/-- The parameters of clauses, and cases for the function given by them. -/
structure DispatchFixture where
  name : String
  description : String
  clauses : List (List Pattern)
  cases : List DispatchCase

/-- What is not as expected. -/
inductive DispatchFailure where
  | malformed (clause : Nat) (e : PatternError)
  | wrongError (case : String) (expected : MatchErrorKind) (e : MatchError)
  | unexpectedMatch (case : String) (expected : MatchErrorKind) (clause : Nat)
  | unexpectedError (case : String) (e : MatchError)
  | wrongClause (case : String) (expected actual : Nat)
  | wrongBindings (case : String) (expected actual : List Value)

/-- The name of a kind of errors. -/
def MatchErrorKind.name : MatchErrorKind → String
  | noMatch => "NoMatch"
  | arityNotFound => "ArityNotFound"

/-- A function that answers the number of the clause that is selected, and what is bound. -/
abbrev Reporter := Dispatcher Id (Nat × List Value)

namespace DispatchFixture

/-- The clauses of which the first has number `i`, or the first one that is malformed. -/
def clausesFrom (i : Nat) :
    List (List Pattern) → Except DispatchFailure (List (Clause Id (Nat × List Value)))
  | [] => .ok []
  | params :: rest =>
    match ClauseHead.compile params with
    | .error e => .error (.malformed i e)
    | .ok head =>
      match clausesFrom (i + 1) rest with
      | .error e => .error e
      | .ok clauses => .ok (⟨head, .always, fun bindings => (i, bindings)⟩ :: clauses)

/-- The function given by the clauses, or the first clause that is malformed. -/
def reporter (f : DispatchFixture) : Except DispatchFailure Reporter :=
  (clausesFrom 0 f.clauses).map Dispatcher.ofClauses

/-- What a call leads to. -/
def outcome (d : Reporter) (c : DispatchCase) : Except MatchError (Nat × List Value) :=
  Id.run (d.call .start (c.args.map Value.ofJson))

/-- What is found about the clause that is selected, if it is not the expected one. -/
def clauseFailure? (c : DispatchCase) (index : Nat) : Option DispatchFailure :=
  c.clause.bind fun expected =>
    if index = expected then none else some (.wrongClause c.name expected index)

/-- What is found about the bindings, if they are not the expected ones. -/
def bindingsFailure? (c : DispatchCase) (bindings : List Value) : Option DispatchFailure :=
  c.bindings.bind fun trees =>
    let expected := trees.map Value.ofJson
    if bindings == expected then none else some (.wrongBindings c.name expected bindings)

/-- What a case finds, if that is not as expected. -/
def caseFailure? (d : Reporter) (c : DispatchCase) : Option DispatchFailure :=
  match c.error, outcome d c with
  | some expected, .error e =>
    if e.kind = expected then none else some (.wrongError c.name expected e)
  | some expected, .ok (index, _) => some (.unexpectedMatch c.name expected index)
  | none, .error e => some (.unexpectedError c.name e)
  | none, .ok (index, bindings) => clauseFailure? c index <|> bindingsFailure? c bindings

/-- The first thing that is not as expected. -/
def failure? (f : DispatchFixture) : Option DispatchFailure :=
  match f.reporter with
  | .error e => some e
  | .ok d => f.cases.findSome? (caseFailure? d)

/-- The message about a failure. -/
def report (f : DispatchFixture) : DispatchFailure → String
  | .malformed clause e =>
    s!"Fixture '{f.name}' clause {clause} failed to compile: {e.message}"
  | .wrongError case _ e =>
    s!"Fixture '{f.name}' case '{case}': wrong error kind ({e.message})"
  | .unexpectedMatch case expected clause =>
    s!"Fixture '{f.name}' case '{case}': expected {expected.name}, but clause {clause} matched"
  | .unexpectedError case e =>
    s!"Fixture '{f.name}' case '{case}': expected a match, got {e.message}"
  | .wrongClause case _ _ => s!"Fixture '{f.name}' case '{case}': wrong clause selected"
  | .wrongBindings case _ _ => s!"Fixture '{f.name}' case '{case}': wrong bindings"

/-- All that is said about a failure. -/
def text (f : DispatchFixture) (e : DispatchFailure) : String :=
  failureText (f.report e) <|
    match e with
    | .wrongError _ expected e => some (e.kind.name, expected.name)
    | .wrongClause _ expected actual => some (toString actual, toString expected)
    | .wrongBindings _ expected actual =>
      some (Value.explicitList actual, Value.explicitList expected)
    | _ => none

end DispatchFixture

end StructuralMatching
