/-
The head of a clause: the parameters, and what stands in for missing arguments.

* `ClauseHead.compile` — the head with the given parameters;
* `ClauseHead.arity`, `minArity` — how many arguments it takes, and how few will do;
* `ClauseHead.fill` — the arguments with the missing ones filled in;
* `ClauseHead.bind?` — what the arguments bind, if they match the parameters.

Design notes: names are shared by all parameters of a head, as they are by the items of a list.
-/
import StructuralMatching.Pattern.Compile

namespace StructuralMatching

/-- Parameters, and the defaults among them with their positions, in ascending order. -/
structure ClauseHead where
  params : List Matcher
  defaults : List (Nat × Value)

namespace ClauseHead

/-- The defaults of parameters of which the first has position `i`. -/
def defaultsFrom (i : Nat) : List Pattern → List (Nat × Value)
  | [] => []
  | p :: ps =>
    match p.default? with
    | some d => (i, d) :: defaultsFrom (i + 1) ps
    | none => defaultsFrom (i + 1) ps

/-- The matchers of parameters, from left to right. -/
def compileParams : List Pattern → Except PatternError (List Matcher)
  | [] => .ok []
  | p :: ps =>
    match p.compile with
    | .error e => .error e
    | .ok m =>
      match compileParams ps with
      | .error e => .error e
      | .ok ms => .ok (m :: ms)

/-- The head with the given parameters. -/
def compile (params : List Pattern) : Except PatternError ClauseHead :=
  (compileParams params).map fun ms => ⟨ms, defaultsFrom 0 params⟩

/-- The number of parameters. -/
def arity (h : ClauseHead) : Nat := h.params.length

/-- The number of parameters without a default. -/
def minArity (h : ClauseHead) : Nat := h.arity - h.defaults.length

/-- Puts a default into its position, or at the end of a list that is too short. -/
def insertDefault (args : List Value) (d : Nat × Value) : List Value :=
  args.insertIdx (min d.1 args.length) d.2

/-- The arguments, with the last defaults in place of those that are missing.  Nothing changes if
there are enough arguments, or too few for the defaults to help. -/
def fill (h : ClauseHead) (args : List Value) : List Value :=
  if h.arity ≤ args.length ∨ args.length + h.defaults.length < h.arity then args
  else
    let missing := h.arity - args.length
    (h.defaults.drop (h.defaults.length - missing)).foldl insertDefault args

/-- Matches arguments against parameters; the first of them is the `i`-th step. -/
def bindFrom? (o : Occasion) (i : Nat) : List Matcher → List Value → Bindings → Option Bindings
  | [], [], out => some out
  | m :: ms, v :: vs, out =>
    match m.attempt (o.step i) v out with
    | (true, out) => bindFrom? o (i + 1) ms vs out
    | (false, _) => none
  | _, _, _ => none

/-- What arguments bind, if there are as many as parameters and all of them match. -/
def bind? (h : ClauseHead) (o : Occasion) (args : List Value) : Option (List Value) :=
  if args.length = h.arity then (bindFrom? o 0 h.params args .empty).map Bindings.values else none

end ClauseHead

/-- A clause of any sort, by its head. -/
class Headed (C : Type) where
  head : C → ClauseHead

end StructuralMatching
