/-
Recursion in a loop against recursion by calls.

The body of a clause may finish, or go on with another call of the function.  In a loop it answers
the call and leaves it to the trampoline; by calls it makes the call itself and answers what comes
of it.  The two come to the same, after as many calls.

* `observed` — a loop that notes every call when it makes it;
* `run_trampolineFrom_of_settled` — a loop that settles makes the same calls under every bound, as
  far as the bound lets it;
* `TailClause` — a clause whose body finishes or goes on with a call, and its two readings
  `TailClause.bouncing` and `TailClause.direct`;
* `TailClause.evaluate` — the recursion by calls, as far as they are nested at most so deeply;
* `TailClause.call_direct` — both readings select the same clause;
* `TailClause.run_follow` — recursion of some depth is a loop with that bound;
* `TailClause.trampoline_agrees_with_recursion` — the loop and the recursion agree.

Design notes: a recursion may go on for ever, so it is given by its approximations, and it
terminates if it does so within some depth.  A guard may panic, which ends both in the same way.
-/
import StructuralMatching.Proofs.Dispatch.Scan
import StructuralMatching.Rule.Program

namespace StructuralMatching

/-! ### Loops that note their calls -/

section

variable {C R : Type}

/-- The same calls, each of which is noted when it is made. -/
def observed (make : C → Except Panic (Bounce C R)) (c : C) :
    StateT (List C) (Except Panic) (Bounce C R) := do
  modify (· ++ [c])
  make c

variable {make : C → Except Panic (Bounce C R)} {made : Nat} {log : List C}

theorem run_observed (c : C) :
    (observed make c).run log = (make c).map fun b => (b, log ++ [c]) := by
  show (make c >>= fun b => _) = _
  cases make c <;> rfl

theorem run_trampolineFrom_done (bound : Nat) (r : R) :
    (trampolineFrom (observed make) made bound (.done r)).run log = .ok (some (r, made), log) := by
  cases bound <;> rfl

theorem run_trampolineFrom_call (bound : Nat) (c : C) :
    (trampolineFrom (observed make) made (bound + 1) (.call c)).run log =
      match make c with
      | .error reason => .error reason
      | .ok b => (trampolineFrom (observed make) (made + 1) bound b).run (log ++ [c]) := by
  rw [trampolineFrom, StateT.run_bind, run_observed]
  cases make c <;> rfl

/-- Notes change nothing. -/
theorem trampolineFrom_eq_map (bound : Nat) (b : Bounce C R) (log : List C) :
    trampolineFrom make made bound b =
      ((trampolineFrom (observed make) made bound b).run log).map Prod.fst := by
  induction bound generalizing made log b with
  | zero => cases b <;> rfl
  | succ bound ih =>
    cases b with
    | done r => rfl
    | call c =>
      rw [run_trampolineFrom_call, trampolineFrom]
      cases hmake : make c with
      | error reason => rfl
      | ok b => exact ih b _

/-- A loop that settles does so too if it notes its calls. -/
theorem exists_run_of_trampolineFrom {bound : Nat} {b : Bounce C R} {answer : Option (R × Nat)}
    (h : trampolineFrom make made bound b = .ok answer) (log : List C) :
    ∃ log', (trampolineFrom (observed make) made bound b).run log = .ok (answer, log') := by
  rw [trampolineFrom_eq_map bound b log] at h
  cases hrun : (trampolineFrom (observed make) made bound b).run log with
  | error reason => rw [hrun] at h; cases h
  | ok result => rw [hrun] at h; cases h; exact ⟨result.2, rfl⟩

/-- **A loop that settles** has made some calls, each of them once, and makes the same calls under
every bound: all of them if it lets it, or else the first ones. -/
theorem run_trampolineFrom_of_settled {bound k : Nat} {b : Bounce C R} {r : R} {log' : List C}
    (h : (trampolineFrom (observed make) made bound b).run log = .ok (some (r, k), log')) :
    ∃ calls, log' = log ++ calls ∧ k = made + calls.length ∧ ∀ bound',
      (trampolineFrom (observed make) made bound' b).run log =
        if calls.length ≤ bound' then .ok (some (r, k), log')
        else .ok (none, log ++ calls.take bound') := by
  induction bound generalizing made log b with
  | zero =>
    cases b with
    | done r' =>
      cases h
      exact ⟨[], by simp, rfl, fun bound' => by simp [run_trampolineFrom_done]⟩
    | call c => cases h
  | succ bound ih =>
    cases b with
    | done r' =>
      cases h
      exact ⟨[], by simp, rfl, fun bound' => by simp [run_trampolineFrom_done]⟩
    | call c =>
      rw [run_trampolineFrom_call] at h
      cases hmake : make c with
      | error reason => rw [hmake] at h; cases h
      | ok b =>
        rw [hmake] at h
        obtain ⟨calls, rfl, rfl, hall⟩ := ih h
        refine ⟨c :: calls, by simp, by simp; omega, fun bound' => ?_⟩
        -- The first call is made as soon as the bound lets it.
        cases bound' with
        | zero => simp [trampolineFrom]; rfl
        | succ bound' =>
          rw [run_trampolineFrom_call, hmake]
          simp [hall]

end

/-! ### Clauses that finish or go on with a call -/

/-- A clause whose body finishes with a value or goes on with a call, both computed from what is
bound. -/
structure TailClause (T : Type) where
  head : ClauseHead
  guard : Guard (Except Panic)
  body : List Value → Bounce (List Value) T

/-- Computations that may go on for ever or be aborted, and note the calls that are made; calls are
numbered. -/
abbrev Recursion := StateT (List (Nat × List Value)) (ExceptT Panic Option)

namespace TailClause

variable {T : Type}

instance : Headed (TailClause T) := ⟨TailClause.head⟩

/-- What a body answers to a loop: a value is a result that is no error. -/
def bounced : Bounce (List Value) T → Bounce (List Value) (Except MatchError T)
  | .done t => .done (.ok t)
  | .call args => .call args

/-- The body leaves the call to a loop. -/
def bouncing (c : TailClause T) :
    Clause (Except Panic) (Bounce (List Value) (Except MatchError T)) where
  head := c.head
  guard := c.guard
  body bindings := .ok (bounced (c.body bindings))

/-- The body makes the call itself, by `recur`. -/
def direct (recur : List Value → Recursion (Except MatchError T)) (c : TailClause T) :
    Clause Recursion (Except MatchError T) where
  head := c.head
  guard bindings := StateT.lift (ExceptT.mk (some (c.guard bindings)))
  body bindings := match c.body bindings with
    | .done t => return .ok t
    | .call args => recur args

/-- The function whose bodies leave their calls to a loop. -/
def program (cs : List (TailClause T)) : BouncingProgram T := .ofClauses (cs.map bouncing)

/-- The result of a call that a body makes; if no clause accepts it, that is the result. -/
def finished : Except MatchError (Except MatchError T) → Except MatchError T
  | .error e => .error e
  | .ok r => r

/-- A call of the function whose bodies make their calls themselves, which may be nested at most so
deeply.  The call has a number, and so have those that it leads to. -/
def evaluate (cs : List (TailClause T)) :
    Nat → Nat → List Value → Recursion (Except MatchError (Except MatchError T))
  | 0, _, _ => StateT.lift (ExceptT.mk none)
  | depth + 1, n, args =>
    (Dispatcher.ofClauses (cs.map (direct fun args => do
      modify (· ++ [(n + 1, args)])
      return finished (← evaluate cs depth (n + 1) args)))).call (Occasion.start.step n) args

/-- What a call comes to if the call that its body goes on with is made by `recur`. -/
def follow (recur : List Value → Recursion (Except MatchError T)) :
    Except Panic (Except MatchError (Bounce (List Value) (Except MatchError T))) →
      Recursion (Except MatchError (Except MatchError T))
  | .error reason => StateT.lift (ExceptT.mk (some (.error reason)))
  | .ok (.error e) => return .error e
  | .ok (.ok (.done r)) => return .ok r
  | .ok (.ok (.call args)) => return .ok (← recur args)

theorem direct_head (recur : List Value → Recursion (Except MatchError T)) (c : TailClause T) :
    (c.direct recur).head = c.head := rfl

theorem bouncing_head (c : TailClause T) : c.bouncing.head = c.head := rfl

theorem callAmong_direct (recur : List Value → Recursion (Except MatchError T)) (o : Occasion)
    (args : List Value) (entries : List (Nat × TailClause T)) :
    Dispatcher.callAmong o args (entries.map fun e => (e.1, e.2.direct recur)) =
      follow recur (Dispatcher.callAmong o args (entries.map fun e => (e.1, e.2.bouncing))) := by
  induction entries with
  | nil => rfl
  | cons e rest ih =>
    obtain ⟨i, c⟩ := e
    simp only [List.map_cons, Dispatcher.callAmong_cons, direct_head, bouncing_head]
    cases c.head.bind? (o.step i) (c.head.fill args) with
    | none => exact ih
    | some bindings =>
      -- Both readings ask the same guard, and go on to the next clause if it rejects.
      show (StateT.lift (ExceptT.mk (some (c.guard bindings))) >>= _) =
        follow recur (c.guard bindings >>= _)
      cases c.guard bindings with
      | error reason => rfl
      | ok accepted =>
        show ((pure accepted : Recursion Bool) >>= _) = _
        rw [pure_bind]
        cases accepted with
        | false => exact ih
        | true =>
          show ((c.direct recur).body bindings >>= fun r => return .ok r) =
            follow recur (.ok (.ok (bounced (c.body bindings))))
          rw [direct]
          dsimp only
          cases c.body bindings with
          | done t => rfl
          | call args => rfl

/-- A function whose bodies make their calls themselves selects the same clause as one whose bodies
leave them to a loop. -/
theorem call_direct (recur : List Value → Recursion (Except MatchError T))
    (cs : List (TailClause T)) (o : Occasion) (args : List Value) :
    (Dispatcher.ofClauses (cs.map (direct recur))).call o args =
      follow recur ((program cs).call o args) := by
  rw [Dispatcher.call, Dispatcher.ofClauses, ArityTable.bucket?_ofClauses,
    ArityTable.taking_map (f := direct recur) fun _ => rfl, program, Dispatcher.call,
    Dispatcher.ofClauses, ArityTable.bucket?_ofClauses,
    ArityTable.taking_map (f := bouncing) fun _ => rfl]
  by_cases h : ArityTable.taking args.length 0 cs = []
  · rw [h]
    rfl
  · rw [if_neg (mt List.map_eq_nil_iff.mp h), if_neg (mt List.map_eq_nil_iff.mp h)]
    exact callAmong_direct recur o args _

/-! ### A loop as a recursion -/

/-- A call that is noted, and then made within the depth that is left. -/
def again (cs : List (TailClause T)) (depth n : Nat) (args : List Value) :
    Recursion (Except MatchError T) := do
  modify (· ++ [(n, args)])
  return finished (← evaluate cs depth n args)

theorem evaluate_succ (cs : List (TailClause T)) (depth n : Nat) (args : List Value) :
    evaluate cs (depth + 1) n args =
      follow (again cs depth (n + 1)) ((program cs).call (Occasion.start.step n) args) := by
  rw [evaluate]
  exact call_direct _ cs _ args

/-- What a loop comes to, taken for a recursion: one that runs out of bound does not terminate. -/
def settled {R L : Type} :
    Except Panic (Option (R × Nat) × L) → ExceptT Panic Option (Except MatchError R × L)
  | .error reason => some (.error reason)
  | .ok (none, _) => none
  | .ok (some (r, _), log) => some (.ok (.ok r, log))

theorem settled_eq_none_iff {R L : Type} {x : Except Panic (Option (R × Nat) × L)} :
    settled x = none ↔ x.map Prod.fst = .ok none := by
  match x with
  | .error _ => constructor <;> intro h <;> cases h
  | .ok (none, _) => exact ⟨fun _ => rfl, fun _ => rfl⟩
  | .ok (some _, _) => constructor <;> intro h <;> cases h

theorem exists_eq_of_settled {R L : Type} {x : Except Panic (Option (R × Nat) × L)} {r : R}
    {log : L} (h : settled x = some (.ok (.ok r, log))) : ∃ k, x = .ok (some (r, k), log) := by
  match x with
  | .error _ => cases h
  | .ok (none, _) => cases h
  | .ok (some (_, k), _) => cases h; exact ⟨k, rfl⟩

theorem map_settled {L : Type} (x : Except Panic (Option (Except MatchError T × Nat) × L)) :
    (fun answer => (.ok (finished answer.1), answer.2)) <$> settled x = settled x := by
  match x with
  | .error _ => rfl
  | .ok (none, _) => rfl
  | .ok (some _, _) => rfl

theorem run_follow_call (cs : List (TailClause T)) (depth n : Nat) (args : List Value)
    (log : List (Nat × List Value)) :
    (follow (again cs depth n) (.ok (.ok (.call args)))).run log =
      (fun answer => (.ok (finished answer.1), answer.2)) <$>
        (evaluate cs depth n args).run (log ++ [(n, args)]) := by
  simp only [follow, again, StateT.run_bind, bind_assoc, map_eq_pure_bind]
  rfl

/-- What is made of a call, by what it answers. -/
theorem make_eq (cs : List (TailClause T)) (n : Nat) (args : List Value) :
    (program cs).make (n, args) =
      match (program cs).call (Occasion.start.step n) args with
      | .error reason => .error reason
      | .ok (.error e) => .ok (.done (.error e))
      | .ok (.ok b) => .ok (b.numbered (n + 1)) := by
  show ((program cs).call (Occasion.start.step n) args >>= _) = _
  match (program cs).call (Occasion.start.step n) args with
  | .error _ => rfl
  | .ok (.error _) => rfl
  | .ok (.ok _) => rfl

/-- **The rest of a recursion is a loop**: to go on with calls that may be nested so deeply is to
make as many of them in a loop. -/
theorem run_follow (cs : List (TailClause T)) (depth n made : Nat)
    (log : List (Nat × List Value)) (b : Bounce (List Value) (Except MatchError T)) :
    (follow (again cs depth n) (.ok (.ok b))).run log =
      settled
        ((trampolineFrom (observed (program cs).make) made depth (b.numbered n)).run log) := by
  -- The recursion spends its depth as the loop spends its bound, one for each call.
  induction depth generalizing n made log b with
  | zero =>
    cases b with
    | done r => rfl
    | call args => rfl
  | succ depth ih =>
    cases b with
    | done r => rfl
    | call args =>
      rw [run_follow_call, evaluate_succ, Bounce.numbered, run_trampolineFrom_call, make_eq]
      match (program cs).call (Occasion.start.step n) args with
      | .error reason => rfl
      | .ok (.error e) =>
        show _ = settled
          ((trampolineFrom (observed (program cs).make) _ depth (.done (.error e))).run _)
        rw [run_trampolineFrom_done]
        rfl
      | .ok (.ok b) =>
        rw [ih (n + 1) (made + 1)]
        exact map_settled _

/-- A call that is made leads to one with the next number, if to any. -/
theorem numbered_of_make {cs : List (TailClause T)} {n : Nat} {args : List Value}
    {b : Bounce (Nat × List Value) (Except MatchError T)}
    (h : (program cs).make (n, args) = .ok b) :
    ∃ b' : Bounce (List Value) (Except MatchError T), b = b'.numbered (n + 1) := by
  rw [make_eq] at h
  match hcall : (program cs).call (Occasion.start.step n) args with
  | .error _ => rw [hcall] at h; cases h
  | .ok (.error e) => rw [hcall] at h; cases h; exact ⟨.done (.error e), rfl⟩
  | .ok (.ok b') => rw [hcall] at h; cases h; exact ⟨b', rfl⟩

/-- The calls of a loop that settles are numbered one after the other. -/
theorem numbers_of_settled {cs : List (TailClause T)} {bound n made k : Nat}
    {log calls : List (Nat × List Value)} {b : Bounce (List Value) (Except MatchError T)}
    {r : Except MatchError T}
    (h : (trampolineFrom (observed (program cs).make) made bound (b.numbered n)).run log =
      .ok (some (r, k), log ++ calls)) :
    calls.map Prod.fst = List.range' n calls.length := by
  induction calls generalizing bound n made log b with
  | nil => rfl
  | cons c calls ih =>
    cases b with
    | done r' =>
      rw [Bounce.numbered, run_trampolineFrom_done] at h
      simp at h
    | call args =>
      cases bound with
      | zero => cases h
      | succ bound =>
        rw [Bounce.numbered, run_trampolineFrom_call] at h
        cases hmake : (program cs).make (n, args) with
        | error reason => rw [hmake] at h; cases h
        | ok b =>
          rw [hmake] at h
          obtain ⟨b, rfl⟩ := numbered_of_make hmake
          obtain ⟨calls', hcalls, -⟩ := run_trampolineFrom_of_settled h
          simp only [List.append_assoc, List.append_cancel_left_eq, List.singleton_append,
            List.cons.injEq] at hcalls
          obtain ⟨rfl, rfl⟩ := hcalls
          have htail : calls.map Prod.fst = List.range' (n + 1) calls.length :=
            ih (h.trans (by rw [List.append_cons]))
          rw [List.map_cons, htail, List.length_cons, List.range'_succ]

section

variable {cs : List (TailClause T)} {args : List Value}
  {b : Bounce (List Value) (Except MatchError T)}

/-- A recursion whose first call is accepted is a loop. -/
theorem run_evaluate_succ (hfirst : (program cs).call (Occasion.start.step 0) args = .ok (.ok b))
    (depth : Nat) :
    (evaluate cs (depth + 1) 0 args).run [] =
      settled ((trampoline (observed (program cs).make) depth (b.numbered 1)).run []) := by
  rw [evaluate_succ, hfirst]
  exact run_follow cs depth 1 0 [] b

/-- If the recursion terminates, the loop makes its calls in the same order, each of them once, and
none after them. -/
theorem run_trampoline_of_evaluate
    (hfirst : (program cs).call (Occasion.start.step 0) args = .ok (.ok b)) {depth : Nat}
    {r : Except MatchError T} {calls : List (Nat × List Value)}
    (h : (evaluate cs depth 0 args).run [] = some (.ok (.ok r, calls))) :
    calls.map Prod.fst = List.range' 1 calls.length ∧
    ∀ bound, (trampoline (observed (program cs).make) bound (b.numbered 1)).run [] =
      if calls.length ≤ bound then .ok (some (r, calls.length), calls)
      else .ok (none, calls.take bound) := by
  cases depth with
  | zero => cases h
  | succ depth =>
    rw [run_evaluate_succ hfirst] at h
    obtain ⟨k, hrun⟩ := exists_eq_of_settled h
    obtain ⟨_, rfl, rfl, hall⟩ := run_trampolineFrom_of_settled hrun
    refine ⟨numbers_of_settled hrun, fun bound => ?_⟩
    rw [trampoline, hall, Nat.zero_add]
    rfl

end

/-- **Trampolined recursion agrees with recursion.**  The loop settles on a result after some
number of calls exactly if the recursion terminates with it after as many.  Then it makes the calls
of the recursion, or as many of them as its bound lets it.  It exceeds every bound exactly if the
recursion goes on for ever. -/
theorem trampoline_agrees_with_recursion (cs : List (TailClause T)) (args : List Value)
    {b : Bounce (List Value) (Except MatchError T)}
    (hfirst : (program cs).call (Occasion.start.step 0) args = .ok (.ok b)) :
    (∀ r k, (∃ bound, trampoline (program cs).make bound (b.numbered 1) = .ok (some (r, k))) ↔
      ∃ depth calls, (evaluate cs depth 0 args).run [] = some (.ok (.ok r, calls)) ∧
        calls.length = k) ∧
    (∀ depth r calls, (evaluate cs depth 0 args).run [] = some (.ok (.ok r, calls)) →
      calls.map Prod.fst = List.range' 1 calls.length ∧
      ∀ bound, (trampoline (observed (program cs).make) bound (b.numbered 1)).run [] =
        if calls.length ≤ bound then .ok (some (r, calls.length), calls)
        else .ok (none, calls.take bound)) ∧
    ((∀ depth, (evaluate cs depth 0 args).run [] = none) ↔
      ∀ bound, trampoline (program cs).make bound (b.numbered 1) = .ok none) := by
  refine ⟨fun r k => ⟨?_, ?_⟩, fun depth r calls => run_trampoline_of_evaluate hfirst,
    ⟨fun h bound => ?_, fun h depth => ?_⟩⟩
  · rintro ⟨bound, h⟩
    obtain ⟨calls, hrun⟩ := exists_run_of_trampolineFrom h []
    obtain ⟨_, rfl, rfl, -⟩ := run_trampolineFrom_of_settled hrun
    refine ⟨bound + 1, calls, ?_, (Nat.zero_add _).symm⟩
    rw [run_evaluate_succ hfirst, trampoline, hrun]
    rfl
  · rintro ⟨depth, calls, h, rfl⟩
    refine ⟨calls.length, ?_⟩
    have hrun := (run_trampoline_of_evaluate hfirst h).2 calls.length
    rw [trampoline, if_pos (Nat.le_refl _)] at hrun
    rw [trampoline, trampolineFrom_eq_map _ _ [], hrun]
    rfl
  · have hnone := h (bound + 1)
    rw [run_evaluate_succ hfirst, settled_eq_none_iff] at hnone
    rw [trampoline, trampolineFrom_eq_map _ _ []]
    exact hnone
  · cases depth with
    | zero => rfl
    | succ depth =>
      rw [run_evaluate_succ hfirst, settled_eq_none_iff, ← h depth, trampoline, trampoline,
        ← trampolineFrom_eq_map]

/-- Adds the numbers from `n` down: `add(0, sum) = sum`, `add(n, sum) = add(n - 1, sum + n)`. -/
def summation : List (TailClause Int64) :=
  [{ head := ⟨[.equalTo (.int 0), .var none], []⟩
     guard := .always
     body := fun
      | [.int sum] => .done sum
      | _ => .done 0 },
   { head := ⟨[.var none, .var none], []⟩
     guard := .always
     body := fun
      | [.int n, .int sum] => .call [.int (n - 1), .int (sum + n)]
      | _ => .done 0 }]

/-- Two numbers are added by two calls. -/
theorem trampoline_agrees_with_recursion_summation :
    (program summation).call (Occasion.start.step 0) [.int 2, .int 0] =
      .ok (.ok (.call [.int 1, .int 2])) ∧
    (evaluate summation 3 0 [.int 2, .int 0]).run [] =
      some (.ok (.ok (.ok 3), [(1, [.int 1, .int 2]), (2, [.int 0, .int 3])])) ∧
    (∃ bound, trampoline (program summation).make bound (.call (1, [.int 1, .int 2])) =
      .ok (some (.ok 3, 2))) ∧
    ∀ bound,
      (trampoline (observed (program summation).make) bound (.call (1, [.int 1, .int 2]))).run [] =
        if 2 ≤ bound then
          .ok (some (.ok 3, 2), [(1, [.int 1, .int 2]), (2, [.int 0, .int 3])])
        else .ok (none, [(1, [.int 1, .int 2]), (2, [.int 0, .int 3])].take bound) := by
  have hagree := trampoline_agrees_with_recursion summation [.int 2, .int 0]
    (b := .call [.int 1, .int 2]) rfl
  exact ⟨rfl, rfl, (hagree.1 (.ok 3) 2).mpr ⟨3, _, rfl, rfl⟩,
    (hagree.2.1 3 (.ok 3) _ rfl).2⟩

end TailClause

end StructuralMatching
