/-
Recursion in a loop: a body that would call again answers the call instead of making it.

* `Bounce` — a result, or a call yet to be made;
* `trampoline` — makes calls until there is a result, and counts them.

Design notes: calls may go on for ever, so the loop has a bound.  A bound that is large enough does
not show in the answer.
-/
import StructuralMatching.Value.Basic

namespace StructuralMatching

/-- A result, or the call that has to be made next. -/
inductive Bounce (C R : Type) where
  | done (r : R)
  | call (c : C)

/-- A short description. -/
def Bounce.describe {C R : Type} (showResult : R → String) : Bounce C R → String
  | done r => "Done(" ++ showResult r ++ ")"
  | call _ => "Call(..)"

/-- The same, with a number for the call. -/
def Bounce.numbered {C R : Type} (n : Nat) : Bounce C R → Bounce (Nat × C) R
  | done r => done r
  | call c => call (n, c)

/-- Makes calls until there is a result; answers the result and the number of calls, `made` of
which were made before, unless `bound` further calls are not enough. -/
def trampolineFrom {m : Type → Type} [Monad m] {C R : Type} (make : C → m (Bounce C R))
    (made : Nat) : Nat → Bounce C R → m (Option (R × Nat))
  | _, .done r => return some (r, made)
  | 0, .call _ => return none
  | bound + 1, .call c => do trampolineFrom make (made + 1) bound (← make c)

/-- Makes calls until there is a result; answers the result and the number of calls, unless
`bound` calls are not enough. -/
def trampoline {m : Type → Type} [Monad m] {C R : Type} (make : C → m (Bounce C R))
    (bound : Nat) (b : Bounce C R) : m (Option (R × Nat)) :=
  trampolineFrom make 0 bound b

end StructuralMatching
