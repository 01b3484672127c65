/-
Functions given by clauses whose guards and bodies take their time.

* `AsyncClause` — a head, perhaps a guard, and a body;
* `AsyncDispatcher.call` — waits for one guard after the other, and then for a body.

Design notes: a guard is only started when all guards before it have come to their results.
-/
import StructuralMatching.Clause.ArityTable
import StructuralMatching.Deferred

namespace StructuralMatching

variable {ε R : Type}

/-- Parameters, perhaps a guard, and a body, both deferred. -/
structure AsyncClause (ε R : Type) where
  head : ClauseHead
  guard : Option (Guard (Deferred ε))
  body : List Value → Deferred ε R

instance : Headed (AsyncClause ε R) := ⟨AsyncClause.head⟩

/-- A function given by clauses with deferred guards and bodies. -/
structure AsyncDispatcher (ε R : Type) where
  table : ArityTable (AsyncClause ε R)

namespace AsyncDispatcher

/-- The function given by a list of clauses. -/
def ofClauses (clauses : List (AsyncClause ε R)) : AsyncDispatcher ε R := ⟨.ofClauses clauses⟩

/-- Tries clauses one after the other. -/
def callAmong (o : Occasion) (args : List Value) :
    List (Nat × AsyncClause ε R) → Deferred ε (Except MatchError R)
  | [] => .done (.error (.noMatch o args))
  | (index, c) :: rest =>
    match c.head.bind? (o.step index) (c.head.fill args) with
    | none => callAmong o args rest
    | some bindings =>
      match c.guard with
      | none => (c.body bindings).bind fun r => .done (.ok r)
      | some guard =>
        (guard bindings).bind fun accepted =>
          if accepted then (c.body bindings).bind fun r => .done (.ok r)
          else callAmong o args rest

/-- Calls the function. -/
def call (d : AsyncDispatcher ε R) (o : Occasion) (args : List Value) :
    Deferred ε (Except MatchError R) :=
  match d.table.bucket? args.length with
  | none => .done (.error (.arityNotFound o args))
  | some bucket => callAmong o args bucket

/-- The numbers of arguments that the function takes. -/
def arities (d : AsyncDispatcher ε R) : List Nat := d.table.arities

/-- A short description. -/
def describe (d : AsyncDispatcher ε R) : String :=
  s!"AsyncDispatcher \x7b clauses: {d.table.size} \x7d"

end AsyncDispatcher

end StructuralMatching
