/-
Computations that come to their result after a while.

* `Deferred` — a computation that may be pending any number of times, may report events, and in
  the end has a result or is aborted;
* `Deferred.run` — what it reports and how it ends;
* `Pattern.matchOrDefaultDeferred` — a match whose guard is such a computation.
-/
import StructuralMatching.Matching

namespace StructuralMatching

/-- The reason for which a computation is aborted. -/
structure Panic where
  text : String
deriving DecidableEq, Repr

/-- A computation that reaches its result step by step. -/
inductive Deferred (ε α : Type) where
  | done (a : α)
  | aborted (reason : Panic)
  /-- Not ready yet; whoever waits has to come back. -/
  | pending (rest : Deferred ε α)
  | event (e : ε) (rest : Deferred ε α)

namespace Deferred

variable {ε α β : Type}

/-- Waits for a result and goes on with it. -/
def bind : Deferred ε α → (α → Deferred ε β) → Deferred ε β
  | done a, f => f a
  | aborted reason, _ => aborted reason
  | pending rest, f => pending (bind rest f)
  | event e rest, f => event e (bind rest f)

instance : Monad (Deferred ε) where
  pure := done
  bind := bind

/-- A computation that is pending `n` times first. -/
def after : Nat → Deferred ε α → Deferred ε α
  | 0, d => d
  | n + 1, d => pending (after n d)

/-- An event alone. -/
def report (e : ε) : Deferred ε Unit := event e (done ())

/-- A result or the reason why there is none. -/
def ofExcept : Except Panic α → Deferred ε α
  | .ok a => done a
  | .error reason => aborted reason

/-- How a computation ends. -/
def result : Deferred ε α → Except Panic α
  | done a => .ok a
  | aborted reason => .error reason
  | pending rest => result rest
  | event _ rest => result rest

/-- What a computation reports. -/
def events : Deferred ε α → List ε
  | done _ => []
  | aborted _ => []
  | pending rest => events rest
  | event e rest => e :: events rest

end Deferred

/-- What a value binds under a deferred guard, or the given values. -/
def Pattern.matchOrDefaultDeferred {ε : Type} (p : Pattern) (o : Occasion)
    (guard : Guard (Deferred ε)) (v : Value) (default : List Value) :
    Deferred ε (Except PatternError (List Value)) :=
  match p.compile with
  | .error e => .done (.error e)
  | .ok c =>
    match c.bind? o v with
    | none => .done (.ok default)
    | some bindings => do
      if ← guard bindings then return .ok bindings else return .ok default

end StructuralMatching
