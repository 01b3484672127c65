/-
Comprehensions: values drawn from several sources, tested and used in every combination.

* `Generator` — a source, and the pattern that what is drawn has to match;
* `comprehension` — the results for all combinations that the guard accepts.

Design notes: generator by generator, the pattern is compiled and then all values of the source are
drawn, so that a pattern that does not compile is noticed before any guard runs.  Names count within
one generator only.  Guard and body run in turns, combination by combination.
-/
import StructuralMatching.Matching

namespace StructuralMatching

/-- Values to draw from, and the pattern that sorts out those that are used. -/
structure Generator where
  pattern : Pattern
  source : List Value

namespace Generator

/-- What the values of a source bind; the first of them is the `i`-th step. -/
def drawFrom (c : Matcher) (o : Occasion) (i : Nat) : List Value → List (List Value)
  | [] => []
  | v :: vs =>
    match c.bind? (o.step i) v with
    | some bindings => bindings :: drawFrom c o (i + 1) vs
    | none => drawFrom c o (i + 1) vs

/-- Every combination extended by everything drawn, the combinations varying more slowly. -/
def extend (combinations drawn : List (List Value)) : List (List Value) :=
  combinations.flatMap fun front => drawn.map fun bindings => front ++ bindings

/-- All combinations of what generators draw, added to given ones; the first generator is the
`i`-th step. -/
def combineFrom (o : Occasion) (i : Nat) (combinations : List (List Value)) :
    List Generator → Except PatternError (List (List Value))
  | [] => .ok combinations
  | g :: gs =>
    match g.pattern.compile with
    | .error e => .error e
    | .ok c => combineFrom o (i + 1) (extend combinations (drawFrom c (o.step i) 0 g.source)) gs

/-- All combinations of what generators draw. -/
def combine (o : Occasion) (gs : List Generator) : Except PatternError (List (List Value)) :=
  combineFrom o 0 [[]] gs

end Generator

variable {m : Type → Type} [Monad m] {R : Type}

/-- The results for those combinations that the guard accepts. -/
def collect (guard : Guard m) (body : List Value → m R) : List (List Value) → m (List R)
  | [] => return []
  | combination :: rest => do
    if ← guard combination then
      let r ← body combination
      return r :: (← collect guard body rest)
    else collect guard body rest

/-- The results for all combinations of what the generators draw, as far as the guard accepts. -/
def comprehension (gs : List Generator) (o : Occasion) (guard : Guard m)
    (body : List Value → m R) : m (Except PatternError (List R)) :=
  match Generator.combine o gs with
  | .error e => return .error e
  | .ok combinations => return .ok (← collect guard body combinations)

end StructuralMatching
