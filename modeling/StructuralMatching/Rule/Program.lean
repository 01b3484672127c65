/-
Functions whose guards and bodies are written as rules.

* `Rule` — parameters, a condition, and a body of some sort;
* `Program` — a function by rules whose bodies are expressions that may call it again;
* `Program.answer`, `Program.trace` — calls of a program;
* `Rule.asyncClause` — a rule with a deferred guard that reports what happens;
* `StreamBody`, `BounceBody` — bodies that make sequences, and bodies that go on with another call.

Design notes: selecting a clause and evaluating its body are kept apart.  The clauses of a program
answer what is to be evaluated, so that the recursion is in the evaluation alone, where its depth
is bounded.
-/
import StructuralMatching.Dispatch.Async
import StructuralMatching.Dispatch.Trace
import StructuralMatching.Rule.Condition
import StructuralMatching.Trampoline
import StructuralMatching.ValueStream

namespace StructuralMatching

/-- Parameters, a condition and a body. -/
structure Rule (B : Type) where
  params : List Pattern
  condition : Option Condition
  body : B

namespace Rule

variable {B R : Type}

/-- The guard of a rule; without a condition it accepts everything. -/
def guard (r : Rule B) : Guard (Except Panic) :=
  match r.condition with
  | some c => c.guard
  | none => .always

/-- The heads of rules, or the first error with the number of its rule. -/
def heads (rules : List (Rule B)) : Except (Nat × PatternError) (List ClauseHead) :=
  rules.mapIdx (fun i r => (i, r)) |>.mapM fun (i, r) =>
    (ClauseHead.compile r.params).mapError (i, ·)

/-- The function given by rules, with what the body of each does with its bindings. -/
def dispatcher (rules : List (Rule B)) (run : Nat → B → List Value → R) :
    Except (Nat × PatternError) (Dispatcher (Except Panic) R) :=
  (heads rules).map fun heads =>
    .ofClauses <| (heads.zip rules).mapIdx fun i (head, r) =>
      ⟨head, r.guard, fun bindings => .ok (run i r.body bindings)⟩

end Rule

/-! ### Bodies that are expressions -/

/-- A body whose clause is selected: an expression, or else the clause's number and bindings. -/
structure Activation where
  clause : Nat
  body : Option Expr
  bindings : List Value

/-- What evaluating a body may end in besides a value. -/
abbrev Evaluation := ExceptT MatchError (Except Panic)

/-- The value of a body. -/
def Activation.eval (a : Activation) (call : Occasion → List Value → Evaluation Value)
    (o : Occasion) : Evaluation Value :=
  match a.body with
  | some e => e.eval call a.bindings o
  | none => pure (.list [.int (Int64.ofNat a.clause), .list a.bindings])

/-- A function by rules whose bodies are expressions. -/
abbrev Program := Dispatcher (Except Panic) Activation

namespace Program

/-- The function given by rules. -/
def ofRules (rules : List (Rule (Option Expr))) : Except (Nat × PatternError) Program :=
  Rule.dispatcher rules fun i body bindings => ⟨i, body, bindings⟩

/-- A call, with at most `depth` calls within each other.  The clauses are tried as step 0, the
body is evaluated as step 1. -/
def call (p : Program) : Nat → Occasion → List Value → Evaluation Value
  | 0, _, _ => throw (m := Except Panic) ⟨"calls are nested too deeply"⟩
  | depth + 1, o, args => do
    let a ← ExceptT.mk (Dispatcher.call p (o.step 0) args)
    a.eval (call p depth) (o.step 1)

/-- A call that tells an error of its own from one of its body. -/
def answer (p : Program) (depth : Nat) (o : Occasion) (args : List Value) :
    Except Panic (Except MatchError (Except MatchError Value)) := do
  match ← Dispatcher.call p (o.step 0) args with
  | .error e => return .error e
  | .ok a => return .ok (← (a.eval (p.call depth) (o.step 1)).run)

/-- A call with an account of it. -/
def trace (p : Program) (depth : Nat) (o : Occasion) (args : List Value) :
    Except Panic (DispatchTrace (Except MatchError Value)) := do
  let t ← Dispatcher.callWithTrace p (o.step 0) args
  match t.result with
  | .error e => return ⟨.error e, t.arity, t.steps⟩
  | .ok a => return ⟨.ok (← (a.eval (p.call depth) (o.step 1)).run), t.arity, t.steps⟩

end Program

/-! ### Deferred rules -/

/-- What a deferred function reports. -/
inductive DispatchEvent where
  /-- The guard of a clause came to its result. -/
  | guard (clause : Nat) (accepted : Bool)
  /-- The body of a clause was started. -/
  | body (clause : Nat)

/-- The `i`-th rule, whose guard is pending `delay` times first. -/
def Rule.asyncClause (i : Nat) (delay : Nat) (head : ClauseHead) (r : Rule (Option Expr)) :
    AsyncClause DispatchEvent Value where
  head := head
  guard := r.condition.map fun c bindings => do
    let accepted ← Deferred.after delay (.ofExcept (c.eval bindings))
    Deferred.report (.guard i accepted)
    return accepted
  body bindings := do
    Deferred.report (.body i)
    return match r.body with
      | some e => e.evalAlone bindings
      | none => .list [.int (Int64.ofNat i), .list bindings]

/-- The deferred function given by rules and the delays of their guards. -/
def AsyncDispatcher.ofRules (rules : List (Nat × Rule (Option Expr))) :
    Except (Nat × PatternError) (AsyncDispatcher DispatchEvent Value) :=
  (Rule.heads (rules.map Prod.snd)).map fun heads =>
    .ofClauses <| (heads.zip rules).mapIdx fun i (head, delay, r) => r.asyncClause i delay head

/-! ### Bodies that make sequences -/

/-- A sequence made from what was bound; most are made from the first binding. -/
inductive StreamBody where
  | empty
  | forever
  | bindings
  | integers
  | items

/-- The sequence of a body. -/
def StreamBody.stream (b : StreamBody) (bindings : List Value) : ValueStream :=
  let first := bindings.headD .undefined
  match b with
  | empty => .empty
  | forever => .constant first
  | .bindings => .ofList bindings
  | integers => .integersFrom (first.asInt?.getD 0)
  | items => .ofList (first.asList?.getD [])

/-- The function given by rules whose bodies make sequences. -/
def Dispatcher.ofStreamRules (rules : List (Rule StreamBody)) :
    Except (Nat × PatternError) (Dispatcher (Except Panic) ValueStream) :=
  Rule.dispatcher rules fun _ body bindings => body.stream bindings

/-! ### Bodies that go on with another call -/

/-- A body that ends with a value, or goes on with a call. -/
inductive BounceBody where
  | finish (e : Expr)
  | continue_ (args : List Expr)

/-- What a body answers: a value, or the arguments of the next call. -/
def BounceBody.bounce (b : BounceBody) (bindings : List Value) :
    Bounce (List Value) (Except MatchError Value) :=
  match b with
  | finish e => .done (.ok (e.evalAlone bindings))
  | continue_ args => .call (args.map fun e => e.evalAlone bindings)

/-- A function whose bodies may go on with another call of it. -/
abbrev BouncingProgram (T : Type) :=
  Dispatcher (Except Panic) (Bounce (List Value) (Except MatchError T))

namespace BouncingProgram

/-- The function given by rules. -/
def ofRules (rules : List (Rule BounceBody)) :
    Except (Nat × PatternError) (BouncingProgram Value) :=
  Rule.dispatcher rules fun _ body bindings => body.bounce bindings

variable {T : Type}

/-- Makes a call; if nothing accepts it, that is the result.  The call to be made is given with its
number. -/
def make (p : BouncingProgram T) (c : Nat × List Value) :
    Except Panic (Bounce (Nat × List Value) (Except MatchError T)) := do
  match ← Dispatcher.call p (Occasion.start.step c.1) c.2 with
  | .error e => return .done (.error e)
  | .ok b => return b.numbered (c.1 + 1)

/-- What a first call answers, and what comes of it with at most `bound` further calls. -/
def run (p : BouncingProgram T) (bound : Nat) (args : List Value) :
    Except Panic (Except MatchError
      (Bounce (List Value) (Except MatchError T) × Option (Except MatchError T × Nat))) := do
  match ← Dispatcher.call p (Occasion.start.step 0) args with
  | .error e => return .error e
  | .ok first => return .ok (first, ← trampoline p.make bound (first.numbered 1))

end BouncingProgram

end StructuralMatching
