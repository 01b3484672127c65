/-
Expressions: values computed from what was bound.

* `Expr` — bindings, constants, lists, texts, integer arithmetic, and recursive calls;
* `Expr.eval` — the value of an expression, given what a recursive call does.

Design notes: operands are evaluated from left to right, and each of them is a step of the occasion
on which the whole is evaluated; what is done with their values is a further step.  Arithmetic wraps
around; on anything but integers it gives no value.
-/
import StructuralMatching.Value.Text

namespace StructuralMatching

/-- An operation on integers. -/
inductive Arithmetic where
  | add
  | sub
  | mul
  /-- The remainder of a division that truncates towards zero. -/
  | rem
deriving DecidableEq, Repr

/-- The result of an operation, which wraps around; a remainder by zero has none. -/
def Arithmetic.result? (op : Arithmetic) (a b : Int64) : Option Int64 :=
  match op with
  | add => some (a + b)
  | sub => some (a - b)
  | mul => some (a * b)
  | rem => if b = 0 then none else some (a % b)

/-- A value computed from what was bound. -/
inductive Expr where
  /-- The `i`-th binding; no value at all if there is none. -/
  | binding (i : Nat)
  | constant (v : Value)
  /-- The list of all bindings. -/
  | bindings
  | list (items : List Expr)
  /-- The text of a value, as a string. -/
  | text (e : Expr)
  /-- The items put before the list `rest`. -/
  | cons (items : List Expr) (rest : Expr)
  | arithmetic (op : Arithmetic) (a b : Expr)
  /-- A recursive call. -/
  | call (args : List Expr)

namespace Expr

/-- The result of an operation on values. -/
def applyArithmetic (op : Arithmetic) (a b : Value) : Value :=
  match a, b with
  | .int a, .int b => ((op.result? a b).map .int).getD .undefined
  | _, _ => .undefined

variable {m : Type → Type} [Monad m]

mutual

/-- The value of an expression. -/
def eval (call : Occasion → List Value → m Value) (bound : List Value) (o : Occasion) :
    Expr → m Value
  | binding i => pure (bound[i]?.getD .undefined)
  | constant v => pure v
  | bindings => pure (.list bound)
  | list items => return .list (← evalAll call bound o 0 items)
  | text e => return .string ((← eval call bound (o.step 0) e).display (o.step 1))
  | cons items rest => do
    let front ← evalAll call bound o 1 items
    match ← eval call bound (o.step 0) rest with
    | .list back => return .list (front ++ back)
    | _ => return .undefined
  | arithmetic op a b => do
    let a ← eval call bound (o.step 0) a
    let b ← eval call bound (o.step 1) b
    return applyArithmetic op a b
  | .call args => do call (o.step 0) (← evalAll call bound o 1 args)
termination_by structural e => e

/-- The values of several expressions; the first of them is the `i`-th step. -/
def evalAll (call : Occasion → List Value → m Value) (bound : List Value) (o : Occasion)
    (i : Nat) : List Expr → m (List Value)
  | [] => pure []
  | e :: es => do
    let v ← eval call bound (o.step i) e
    return v :: (← evalAll call bound o (i + 1) es)
termination_by structural es => es

end

/-- The value of an expression where there is nothing to call. -/
def evalAlone (e : Expr) (bound : List Value) : Value :=
  (e.eval (fun _ _ => pure .undefined) bound .start : Id Value)

end Expr

end StructuralMatching
