/-
What can go wrong: patterns without meaning, and arguments that nothing accepts.

* `PatternError` — why a pattern cannot be compiled;
* `MatchError` — a pattern or a list of clauses accepts none of these arguments.
-/
import StructuralMatching.Segment.Basic
import StructuralMatching.Value.Text

namespace StructuralMatching

/-- Why a pattern cannot be compiled. -/
inductive PatternError where
  /-- The segment at `index` cannot be laid out. -/
  | segment (index : Nat) (cause : SegmentError)
  /-- Instances are no constants. -/
  | unsupportedLiteral (valueType : String)
  /-- Patterns are nested too deeply. -/
  | depthExceeded (depth max : Nat)
deriving DecidableEq, Repr

def PatternError.message : PatternError → String
  | segment index cause => cause.message index
  | unsupportedLiteral valueType => s!"{valueType} values cannot be used as literal patterns"
  | depthExceeded depth max =>
    s!"pattern nesting depth is {depth}, but maximum allowed is {max}"

/-- Why arguments are not accepted. -/
inductive MatchErrorKind where
  | noMatch
  /-- Nothing takes this number of arguments. -/
  | arityNotFound
deriving DecidableEq, Repr

/-- Arguments that are not accepted, by their text. -/
structure MatchError where
  kind : MatchErrorKind
  arguments : String
deriving DecidableEq, Repr

namespace MatchError

def noMatch (o : Occasion) (args : List Value) : MatchError := ⟨.noMatch, Value.displayAll o args⟩

def arityNotFound (o : Occasion) (args : List Value) : MatchError :=
  ⟨.arityNotFound, Value.displayAll o args⟩

def message (e : MatchError) : String := "No match for: " ++ e.arguments

end MatchError

/-- Why a value is not accepted by a pattern. -/
inductive MatchFailure where
  | mismatch (e : MatchError)
  | malformed (e : PatternError)
deriving DecidableEq, Repr

end StructuralMatching
