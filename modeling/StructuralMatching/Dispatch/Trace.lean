/-
Calls with an account of which clauses were tried.

* `ClauseStep` — a clause that was tried: with which arguments, and what came of it;
* `DispatchTrace` — the result of a call and its steps;
* `Dispatcher.callWithTrace` — a call with its account.
-/
import StructuralMatching.Dispatch.Basic

namespace StructuralMatching

/-- What came of trying a clause. -/
inductive StepOutcome where
  /-- The arguments do not match. -/
  | mismatch
  | guardRejected (bindings : List Value)
  | selected (bindings : List Value)

/-- A clause that was tried. -/
structure ClauseStep where
  /-- The number of the clause in the order of declaration. -/
  index : Nat
  /-- The arguments, with the missing ones filled in. -/
  args : List Value
  outcome : StepOutcome

/-- The result of a call and how it came about. -/
structure DispatchTrace (R : Type) where
  result : Except MatchError R
  /-- The number of arguments. -/
  arity : Nat
  /-- The clauses that were tried, in this order. -/
  steps : List ClauseStep

/-- The number of the clause that was selected. -/
def DispatchTrace.selected? {R : Type} (t : DispatchTrace R) : Option Nat :=
  t.steps.findSome? fun s =>
    match s.outcome with
    | .selected _ => some s.index
    | _ => none

variable {m : Type → Type} [Monad m] {R : Type}

namespace Dispatcher

/-- Tries clauses one after the other, after those of `steps`. -/
def traceAmong (o : Occasion) (args : List Value) (steps : List ClauseStep) :
    List (Nat × Clause m R) → m (DispatchTrace R)
  | [] => return ⟨.error (.noMatch o args), args.length, steps⟩
  | (index, c) :: rest => do
    let filled := c.head.fill args
    match c.head.bind? (o.step index) filled with
    | none => traceAmong o args (steps ++ [⟨index, filled, .mismatch⟩]) rest
    | some bindings =>
      if ← c.guard bindings then
        let result ← c.body bindings
        return ⟨.ok result, args.length, steps ++ [⟨index, filled, .selected bindings⟩]⟩
      else traceAmong o args (steps ++ [⟨index, filled, .guardRejected bindings⟩]) rest

/-- Calls the function and accounts for it. -/
def callWithTrace (d : Dispatcher m R) (o : Occasion) (args : List Value) :
    m (DispatchTrace R) :=
  match d.table.bucket? args.length with
  | none => return ⟨.error (.arityNotFound o args), args.length, []⟩
  | some bucket => traceAmong o args [] bucket

end Dispatcher

end StructuralMatching
