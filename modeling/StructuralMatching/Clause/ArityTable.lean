/-
Clauses by the number of arguments that they take.

* `ArityTable` — for every number of arguments, the clauses that take so many, each with its number
  in the order of declaration;
* `ArityTable.ofClauses` — the table of a list of clauses;
* `ArityTable.bucket?` — the clauses that take a number of arguments, if there are any.
-/
import StructuralMatching.Clause.Head

namespace StructuralMatching

/-- Clauses in buckets, one for every number of arguments, in ascending order. -/
structure ArityTable (C : Type) where
  buckets : List (Nat × List (Nat × C))
  size : Nat

namespace ArityTable

variable {C : Type}

/-- Adds an entry at the end of the bucket of `n`. -/
def addTo (n : Nat) (entry : Nat × C) : List (Nat × List (Nat × C)) → List (Nat × List (Nat × C))
  | [] => [(n, [entry])]
  | (k, bucket) :: rest =>
    if n < k then (n, [entry]) :: (k, bucket) :: rest
    else if n = k then (k, bucket ++ [entry]) :: rest
    else (k, bucket) :: addTo n entry rest

/-- The numbers of arguments that a head takes. -/
def aritiesOf (h : ClauseHead) : List Nat := List.range' h.minArity (h.arity + 1 - h.minArity)

/-- Adds a clause to every bucket to which it belongs. -/
def addClause [Headed C] (buckets : List (Nat × List (Nat × C))) (entry : Nat × C) :
    List (Nat × List (Nat × C)) :=
  (aritiesOf (Headed.head entry.2)).foldl (fun buckets n => addTo n entry buckets) buckets

/-- Adds clauses of which the first has number `i`. -/
def addFrom [Headed C] (i : Nat) (buckets : List (Nat × List (Nat × C))) :
    List C → List (Nat × List (Nat × C))
  | [] => buckets
  | c :: cs => addFrom (i + 1) (addClause buckets (i, c)) cs

/-- The table of a list of clauses. -/
def ofClauses [Headed C] (clauses : List C) : ArityTable C :=
  ⟨addFrom 0 [] clauses, clauses.length⟩

/-- The clauses that take `n` arguments, if there are any. -/
def bucket? (t : ArityTable C) (n : Nat) : Option (List (Nat × C)) := t.buckets.lookup n

/-- The numbers of arguments that some clause takes. -/
def arities (t : ArityTable C) : List Nat := t.buckets.map Prod.fst

end ArityTable

end StructuralMatching
