/-
Conditions: tests of what was bound, as they stand in guards.

* `Condition` — comparisons, joined by "and", "or" and "not";
* `Condition.eval` — whether a condition holds, unless its evaluation is aborted.

Design notes: "and" and "or" look at no more of their parts than they have to.
-/
import StructuralMatching.Deferred
import StructuralMatching.Rule.Expr

namespace StructuralMatching

/-- A test of what was bound. -/
inductive Condition where
  | constant (b : Bool)
  | equal (a b : Expr)
  /-- Both are integers, and the first is less. -/
  | less (a b : Expr)
  | hasType (e : Expr) (name : String)
  /-- So many values were bound. -/
  | count (n : Nat)
  | all (parts : List Condition)
  | any (parts : List Condition)
  | not (part : Condition)
  /-- The evaluation is aborted. -/
  | panic (text : String)

namespace Condition

/-- Whether both values are integers and the first is less. -/
def isLess : Value → Value → Bool
  | .int a, .int b => a < b
  | _, _ => false

mutual

/-- Whether a condition holds. -/
def eval (bound : List Value) : Condition → Except Panic Bool
  | constant b => .ok b
  | equal a b => .ok (a.evalAlone bound == b.evalAlone bound)
  | less a b => .ok (isLess (a.evalAlone bound) (b.evalAlone bound))
  | hasType e name => .ok ((e.evalAlone bound).typeName == name)
  | count n => .ok (bound.length == n)
  | all parts => evalAll bound parts
  | any parts => evalAny bound parts
  | not part =>
    match eval bound part with
    | .ok b => .ok (!b)
    | .error e => .error e
  | panic text => .error ⟨text⟩
termination_by structural c => c

/-- Whether all conditions hold. -/
def evalAll (bound : List Value) : List Condition → Except Panic Bool
  | [] => .ok true
  | c :: cs =>
    match eval bound c with
    | .ok true => evalAll bound cs
    | failed => failed
termination_by structural cs => cs

/-- Whether one of the conditions holds. -/
def evalAny (bound : List Value) : List Condition → Except Panic Bool
  | [] => .ok false
  | c :: cs =>
    match eval bound c with
    | .ok false => evalAny bound cs
    | decided => decided
termination_by structural cs => cs

end

/-- A condition as a guard. -/
def guard (c : Condition) : Guard (Except Panic) := fun bound => c.eval bound

end Condition

end StructuralMatching
