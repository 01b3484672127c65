/-
Functions given by clauses.

* `Clause` — a head, a guard, and a body that gets what the arguments bind;
* `Dispatcher` — clauses in the order in which they are tried;
* `Dispatcher.call` — the body of the first clause that matches and whose guard accepts.

Design notes: guards and bodies run in any monad.  A guard runs only if its clause matches, and
nothing runs after the body of the clause that is selected.
-/
import StructuralMatching.Clause.ArityTable
import StructuralMatching.Matching

namespace StructuralMatching

/-- Parameters, a guard and a body. -/
structure Clause (m : Type → Type) (R : Type) where
  head : ClauseHead
  guard : Guard m
  body : List Value → m R

instance {m : Type → Type} {R : Type} : Headed (Clause m R) := ⟨Clause.head⟩

/-- A function given by clauses. -/
structure Dispatcher (m : Type → Type) (R : Type) where
  table : ArityTable (Clause m R)

variable {m : Type → Type} [Monad m] {R : Type}

/-- What the arguments bind, if the clause is selected for them. -/
def Clause.select? (c : Clause m R) (o : Occasion) (args : List Value) :
    m (Option (List Value)) := do
  match c.head.bind? o (c.head.fill args) with
  | none => return none
  | some bindings => if ← c.guard bindings then return some bindings else return none

namespace Dispatcher

/-- The function given by a list of clauses. -/
def ofClauses (clauses : List (Clause m R)) : Dispatcher m R := ⟨.ofClauses clauses⟩

/-- Tries clauses one after the other. -/
def callAmong (o : Occasion) (args : List Value) :
    List (Nat × Clause m R) → m (Except MatchError R)
  | [] => return .error (.noMatch o args)
  | (index, c) :: rest => do
    match ← c.select? (o.step index) args with
    | some bindings => return .ok (← c.body bindings)
    | none => callAmong o args rest

/-- Calls the function. -/
def call (d : Dispatcher m R) (o : Occasion) (args : List Value) : m (Except MatchError R) :=
  match d.table.bucket? args.length with
  | none => return .error (.arityNotFound o args)
  | some bucket => callAmong o args bucket

/-- The number of clauses. -/
def size (d : Dispatcher m R) : Nat := d.table.size

def isEmpty (d : Dispatcher m R) : Bool := d.size == 0

/-- The numbers of arguments that the function takes. -/
def arities (d : Dispatcher m R) : List Nat := d.table.arities

/-- A short description. -/
def describe (d : Dispatcher m R) : String :=
  let arities := ", ".intercalate (d.arities.map toString)
  s!"Dispatcher \x7b clauses: {d.size}, arities: [{arities}] \x7d"

end Dispatcher

end StructuralMatching
