/-
Calls as a scan of all clauses.

A function given by clauses looks its clauses up by the number of arguments.  One that knew no
table would go through all clauses in the order of declaration and pass over those that do not
take so many.  The two are the same computation, whatever guards and bodies do:

* `DeclaredClause` — a clause and its parameters;
* `DeclaredClause.bound?` — what arguments bind, told by the parameters alone;
* `DeclaredClause.scan` — the call without a table;
* `Dispatcher.callAmong_taking` — the clauses that take the arguments, tried one by one;
* `Dispatcher.call_eq_scan` — a call is a scan.

Design notes: the scan knows no heads.  It deals arguments and defaults out to the parameters, makes
a matcher of each when its turn comes, and begins with an empty store for every clause.
-/
import StructuralMatching.Deferred
import StructuralMatching.Dispatch.Basic
import StructuralMatching.Proofs.Clause.Buckets
import StructuralMatching.Proofs.Clause.Filling

namespace StructuralMatching

variable {m : Type → Type} {R : Type}

/-- A clause and the parameters that its head was made of. -/
structure DeclaredClause (m : Type → Type) (R : Type) where
  params : List Pattern
  clause : Clause m R
  compiled : ClauseHead.compile params = .ok clause.head

namespace DeclaredClause

/-- The number of arguments is that of the parameters, or smaller as far as there are defaults. -/
def Takes (c : DeclaredClause m R) (n : Nat) : Prop :=
  ClauseHead.fewest c.params ≤ n ∧ n ≤ c.params.length

instance (c : DeclaredClause m R) (n : Nat) : Decidable (c.Takes n) :=
  inferInstanceAs (Decidable (_ ∧ _))

theorem takes_head_iff (c : DeclaredClause m R) (n : Nat) :
    (Headed.head c.clause).Takes n ↔ c.Takes n :=
  ClauseHead.takes_iff_of_compile c.compiled n

/-- The arguments with the last defaults in place of those that are missing. -/
def filled (c : DeclaredClause m R) (args : List Value) : List Value :=
  ClauseHead.spread (c.params.length - args.length) c.params args

/-- Matches values against patterns, one for each and from left to right; the first of them is the
`i`-th step.  The patterns share the names in `out`. -/
def matchAll? (o : Occasion) (i : Nat) : List Pattern → List Value → Bindings → Option Bindings
  | [], [], out => some out
  | p :: ps, v :: vs, out =>
    match p.compile with
    | .error _ => none
    | .ok matcher =>
      match matcher.attempt (o.step i) v out with
      | (true, out) => matchAll? o (i + 1) ps vs out
      | (false, _) => none
  | _, _, _ => none

/-- What the arguments bind if they match the parameters, with nothing bound before. -/
def bound? (c : DeclaredClause m R) (o : Occasion) (args : List Value) : Option (List Value) :=
  (matchAll? o 0 c.params (c.filled args) .empty).map Bindings.values

/-- Tries clauses one after the other, of which the first has number `i`; `tried` tells whether one
before them takes so many arguments. -/
def scanFrom [Monad m] (o : Occasion) (args : List Value) (tried : Bool) (i : Nat) :
    List (DeclaredClause m R) → m (Except MatchError R)
  | [] => return .error (if tried then .noMatch o args else .arityNotFound o args)
  | c :: cs =>
    if c.Takes args.length then
      match c.bound? (o.step i) args with
      | none => scanFrom o args true (i + 1) cs
      | some bindings => do
        if ← c.clause.guard bindings then return .ok (← c.clause.body bindings)
        else scanFrom o args true (i + 1) cs
    else scanFrom o args tried (i + 1) cs

/-- The body of the first clause that takes the arguments and whose guard accepts. -/
def scan [Monad m] (o : Occasion) (args : List Value) (cs : List (DeclaredClause m R)) :
    m (Except MatchError R) :=
  scanFrom o args false 0 cs

/-! ### One clause -/

/-- Matchers that are made before the first value is matched do the same. -/
theorem matchAll?_eq_bindFrom? {params : List Pattern} {ms : List Matcher}
    (h : ClauseHead.compileParams params = .ok ms) (o : Occasion) (i : Nat) (values : List Value)
    (out : Bindings) :
    matchAll? o i params values out = ClauseHead.bindFrom? o i ms values out := by
  induction params generalizing ms i values out with
  | nil =>
    cases h
    cases values <;> rfl
  | cons p ps ih =>
    obtain ⟨matcher, rest, hp, hps, rfl⟩ := ClauseHead.compileParams_cons_eq_ok_iff.mp h
    cases values with
    | nil => rfl
    | cons v vs =>
      rw [matchAll?, ClauseHead.bindFrom?, hp]
      simp only
      rcases matcher.attempt (o.step i) v out with ⟨accepted, out⟩
      cases accepted with
      | false => rfl
      | true => exact ih hps (i + 1) vs out

theorem filled_eq_fill (c : DeclaredClause m R) {args : List Value} (h : c.Takes args.length) :
    c.filled args = c.clause.head.fill args := by
  rw [ClauseHead.fill_eq_spread c.compiled ((takes_head_iff c _).mpr h), filled,
    ClauseHead.arity_of_compile c.compiled]

theorem filled_isFilling (c : DeclaredClause m R) {args : List Value} (h : c.Takes args.length) :
    ClauseHead.IsFilling c.params (c.params.length - args.length) args (c.filled args) := by
  have hs := ClauseHead.suffices_of_takes c.compiled ((takes_head_iff c _).mpr h)
  rw [ClauseHead.arity_of_compile c.compiled] at hs
  exact ClauseHead.isFilling_spread hs

/-- The head of a clause binds what its parameters say. -/
theorem bound?_eq_bind? (c : DeclaredClause m R) (o : Occasion) {args : List Value}
    (h : c.Takes args.length) :
    c.bound? o args = c.clause.head.bind? o (c.clause.head.fill args) := by
  have hlength : (c.clause.head.fill args).length = c.clause.head.arity :=
    ClauseHead.length_fill (ClauseHead.length_defaults_le c.compiled) ((takes_head_iff c _).mpr h)
  obtain ⟨ms, hms, hhead⟩ := ClauseHead.compile_eq_ok_iff.mp c.compiled
  rw [bound?, filled_eq_fill c h, ClauseHead.bind?, if_pos hlength, matchAll?_eq_bindFrom? hms,
    hhead]

end DeclaredClause

namespace Dispatcher

open DeclaredClause

/-- As long as no clause takes the arguments there is nothing to remember. -/
theorem scanFrom_untried [Monad m] (o : Occasion) (args : List Value) (i : Nat)
    (cs : List (DeclaredClause m R)) :
    scanFrom o args false i cs =
      if ArityTable.taking args.length i (cs.map clause) = [] then
        return .error (.arityNotFound o args)
      else scanFrom o args true i cs := by
  induction cs generalizing i with
  | nil => rfl
  | cons c cs ih =>
    rw [List.map_cons, ArityTable.taking, scanFrom, scanFrom]
    by_cases hc : c.Takes args.length
    -- From here on the scan remembers that there was one.
    · rw [if_pos hc, if_pos hc, if_pos ((takes_head_iff c _).mpr hc),
        if_neg (List.cons_ne_nil _ _)]
    · rw [if_neg hc, if_neg hc, if_neg (mt (takes_head_iff c _).mp hc)]
      exact ih (i + 1)

variable [Monad m] [LawfulMonad m]

theorem callAmong_cons (o : Occasion) (args : List Value) (i : Nat) (c : Clause m R)
    (rest : List (Nat × Clause m R)) :
    callAmong o args ((i, c) :: rest) =
      (match c.head.bind? (o.step i) (c.head.fill args) with
      | none => callAmong o args rest
      | some bindings => do
        if ← c.guard bindings then return .ok (← c.body bindings)
        else callAmong o args rest) := by
  rw [callAmong, Clause.select?]
  cases c.head.bind? (o.step i) (c.head.fill args) with
  | none => exact pure_bind _ _
  | some bindings =>
    show ((c.guard bindings >>= _) >>= _) = (c.guard bindings >>= _)
    rw [bind_assoc]
    congr 1
    funext accepted
    cases accepted with
    | true => exact pure_bind _ _
    | false => exact pure_bind _ _

/-- The clauses of a list that take the arguments, after one that was tried in vain. -/
theorem callAmong_taking (o : Occasion) (args : List Value) (i : Nat)
    (cs : List (DeclaredClause m R)) :
    callAmong o args (ArityTable.taking args.length i (cs.map clause)) =
      scanFrom o args true i cs := by
  induction cs generalizing i with
  | nil => rfl
  | cons c cs ih =>
    rw [List.map_cons, ArityTable.taking, scanFrom]
    by_cases hc : c.Takes args.length
    · rw [if_pos ((takes_head_iff c _).mpr hc), if_pos hc, callAmong_cons, ih,
        bound?_eq_bind? c _ hc]
    · rw [if_neg (mt (takes_head_iff c _).mp hc), if_neg hc]
      exact ih (i + 1)

/-- **A call is a scan of all clauses**, as a computation of any monad: the same guards run in the
same order, and so does the same body, if any.  What a clause that takes the arguments matches
against its parameters is the arguments with the last defaults filled in. -/
theorem call_eq_scan (cs : List (DeclaredClause m R)) (o : Occasion) (args : List Value) :
    (ofClauses (cs.map clause)).call o args = scan o args cs ∧
    ∀ c ∈ cs, c.Takes args.length →
      ClauseHead.IsFilling c.params (c.params.length - args.length) args (c.filled args) := by
  refine ⟨?_, fun c _ => filled_isFilling c⟩
  rw [call, ofClauses, ArityTable.bucket?_ofClauses, scan, scanFrom_untried]
  by_cases h : ArityTable.taking args.length 0 (cs.map clause) = []
  · rw [if_pos h, if_pos h]
  · rw [if_neg h, if_neg h]
    exact callAmong_taking o args 0 cs

/-- A guard or a body, by the number of its clause, and what it was given. -/
inductive Note where
  | guard (number : Nat) (bindings : List Value)
  | body (number : Nat) (bindings : List Value)

/-- Computations that note what guards and bodies were given. -/
abbrev Noting := StateT (List Note) (Except Panic)

/-- A clause whose guard comes to `answer` and whose body gives back what it was given. -/
def noting (number : Nat) (head : ClauseHead) (answer : Except Panic Bool) :
    Clause Noting (List Value) where
  head := head
  guard bindings := do
    modify (· ++ [.guard number bindings])
    StateT.lift answer
  body bindings := do
    modify (· ++ [.body number bindings])
    return bindings

/-- The first clause takes two arguments, and the third takes two or one. -/
def fiveClauses : List (DeclaredClause Noting (List Value)) :=
  [⟨[.wildcard, .wildcard], noting 0 ⟨[.anything, .anything], []⟩ (.ok false), rfl⟩,
    ⟨[.bound (.int 9)], noting 1 ⟨[.equalTo (.int 9)], []⟩ (.error ⟨"nine"⟩), rfl⟩,
    ⟨[.var ⟨some "x", none⟩, .var ⟨some "y", some (.int 5)⟩],
      noting 2 ⟨[.var (some "x"), .var (some "y")], [(1, .int 5)]⟩ (.ok false), rfl⟩,
    ⟨[.var ⟨some "x", none⟩], noting 3 ⟨[.var (some "x")], []⟩ (.ok true), rfl⟩,
    ⟨[.wildcard], noting 4 ⟨[.anything], []⟩ (.error ⟨"anything"⟩), rfl⟩]

/-- One argument is too few for the first of five clauses, does not match the second, is rejected by
the third together with a default, and selects the fourth, so that the guard of the last one is not
asked.  An argument that the second one matches ends the call there.  Two arguments are rejected by
all clauses that take them, and three are too many. -/
theorem call_eq_scan_missing :
    LawfulMonad Noting ∧
    (ofClauses (fiveClauses.map clause)).call .start [.int 1] =
      scan .start [.int 1] fiveClauses ∧
    ((ofClauses (fiveClauses.map clause)).call .start [.int 1]).run [] =
      .ok (.ok [.int 1],
        [.guard 2 [.int 1, .int 5], .guard 3 [.int 1], .body 3 [.int 1]]) ∧
    ((ofClauses (fiveClauses.map clause)).call .start [.int 9]).run [] = .error ⟨"nine"⟩ ∧
    ((ofClauses (fiveClauses.map clause)).call .start [.int 1, .int 2]).run [] =
      .ok (.error (.noMatch .start [.int 1, .int 2]), [.guard 0 [], .guard 2 [.int 1, .int 2]]) ∧
    ((ofClauses (fiveClauses.map clause)).call .start [.int 1, .int 2, .int 3]).run [] =
      .ok (.error (.arityNotFound .start [.int 1, .int 2, .int 3]), []) := by
  refine ⟨inferInstance, (call_eq_scan fiveClauses .start [.int 1]).1, ?_, ?_, ?_, ?_⟩
  · rw [(call_eq_scan fiveClauses .start [.int 1]).1]
    rfl
  · rw [(call_eq_scan fiveClauses .start [.int 9]).1]
    rfl
  · rw [(call_eq_scan fiveClauses .start [.int 1, .int 2]).1]
    rfl
  · rw [(call_eq_scan fiveClauses .start [.int 1, .int 2, .int 3]).1]
    rfl

end Dispatcher

end StructuralMatching
