/-
Matching one value against one pattern.

* `Guard` — a test of what was bound, which may have effects of its own;
* `Matcher.bindWhen?`, `bindOrError`, `bindOrDefault` — a match under a guard, with three ways to
  say that there is none;
* `Pattern.matchOrError`, `match?`, `matchOrDefault` — the same for a pattern that is
  compiled first; an error of the pattern is never taken for a mismatch, nor a mismatch for it.

Design notes: the guard runs in any monad.  It runs once if the value matches, and not at all if
it does not.
-/
import StructuralMatching.Pattern.Compile

namespace StructuralMatching

/-- A test of what was bound. -/
abbrev Guard (m : Type → Type) := List Value → m Bool

/-- The guard that accepts everything. -/
def Guard.always {m : Type → Type} [Monad m] : Guard m := fun _ => pure true

variable {m : Type → Type} [Monad m]

namespace Matcher

/-- What a value binds, if it matches and the guard accepts that. -/
def bindWhen? (c : Matcher) (o : Occasion) (guard : Guard m) (v : Value) :
    m (Option (List Value)) := do
  match c.bind? o v with
  | none => return none
  | some bindings => if ← guard bindings then return some bindings else return none

/-- What a value binds under a guard, or an error that shows the value. -/
def bindOrError (c : Matcher) (o : Occasion) (guard : Guard m) (v : Value) :
    m (Except MatchError (List Value)) := do
  match ← c.bindWhen? o guard v with
  | some bindings => return .ok bindings
  | none => return .error (.noMatch o [v])

/-- What a value binds under a guard, or the given values. -/
def bindOrDefault (c : Matcher) (o : Occasion) (guard : Guard m) (v : Value)
    (default : List Value) : m (List Value) := do
  return (← c.bindWhen? o guard v).getD default

end Matcher

namespace Pattern

/-- Compiles a pattern and goes on with its matcher. -/
def withMatcher {α : Type} (p : Pattern) (use : Matcher → m α) : m (Except PatternError α) :=
  match p.compile with
  | .error e => return .error e
  | .ok c => return .ok (← use c)

/-- What a value binds under a guard, or why there is nothing. -/
def matchOrError (p : Pattern) (o : Occasion) (guard : Guard m) (v : Value) :
    m (Except MatchFailure (List Value)) :=
  match p.compile with
  | .error e => return .error (.malformed e)
  | .ok c => do
    match ← c.bindOrError o guard v with
    | .ok bindings => return .ok bindings
    | .error e => return .error (.mismatch e)

/-- What a value binds under a guard, or nothing. -/
def match? (p : Pattern) (o : Occasion) (guard : Guard m) (v : Value) :
    m (Except PatternError (Option (List Value))) := do
  match ← p.matchOrError o guard v with
  | .ok bindings => return .ok (some bindings)
  | .error (.mismatch _) => return .ok none
  | .error (.malformed e) => return .error e

/-- What a value binds under a guard, or the given values. -/
def matchOrDefault (p : Pattern) (o : Occasion) (guard : Guard m) (v : Value)
    (default : List Value) : m (Except PatternError (List Value)) :=
  p.withMatcher fun c => c.bindOrDefault o guard v default

end Pattern

end StructuralMatching
