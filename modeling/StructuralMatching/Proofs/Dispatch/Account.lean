/-
The account that a call gives of itself.

A call with an account comes to the same result as the call without one, and the account names
every clause that was tried, in order, with the reason why it was passed over:

* `Dispatcher.result_callWithTrace` — the same computation, if the account is thrown away;
* `ClauseStep.Describes` — a step tells truly what came of trying a clause;
* `DispatchTrace.IsAccount` — the steps are those of the clauses that take the arguments, up to the
  one that is selected;
* `Tried` — how the clauses of a bucket are tried, step by step;
* `Dispatcher.callWithTrace_isAccount` — what a call says of itself is an account.

Design notes: `Tried` is the loop as a relation, with one rule for each way in which a clause can
end.  All parts of an account are read off it by induction, and none of them mentions the loop.
-/
import StructuralMatching.Dispatch.Trace
import StructuralMatching.Proofs.Dispatch.Scan

namespace StructuralMatching

namespace Dispatcher

/-! ### The result -/

section Result

variable {m : Type → Type} [Monad m] [LawfulMonad m] {R : Type}

theorem result_traceAmong (o : Occasion) (args : List Value) (steps : List ClauseStep)
    (entries : List (Nat × Clause m R)) :
    DispatchTrace.result <$> traceAmong o args steps entries = callAmong o args entries := by
  induction entries generalizing steps with
  | nil => simp [traceAmong, callAmong]
  | cons entry rest ih =>
    obtain ⟨i, c⟩ := entry
    rw [callAmong_cons, traceAmong]
    cases c.head.bind? (o.step i) (c.head.fill args) with
    | none => exact ih _
    | some bindings =>
      show DispatchTrace.result <$> (c.guard bindings >>= _) = (c.guard bindings >>= _)
      rw [map_bind]
      congr 1
      funext accepted
      cases accepted with
      | true => simp
      | false => exact ih _

/-- **A call with an account is a call**, as a computation of any monad. -/
theorem result_callWithTrace (d : Dispatcher m R) (o : Occasion) (args : List Value) :
    DispatchTrace.result <$> d.callWithTrace o args = d.call o args := by
  rw [callWithTrace, call]
  cases d.table.bucket? args.length with
  | none => exact map_pure _ _
  | some bucket => exact result_traceAmong o args [] bucket

end Result

end Dispatcher

/-! ### What an account says -/

variable {R : Type}

/-- The number of the clause, if this is a step by which it is selected. -/
def ClauseStep.selectedIndex? (s : ClauseStep) : Option Nat :=
  match s.outcome with
  | .selected _ => some s.index
  | _ => none

/-- A step says what came of trying a clause: with the missing arguments filled in, they do not
match, or the guard rejects or accepts what they bind. -/
structure ClauseStep.Describes (s : ClauseStep) (o : Occasion) (args : List Value)
    (c : Clause (Except Panic) R) : Prop where
  args_eq : s.args = c.head.fill args
  mismatch_iff : s.outcome = .mismatch ↔ c.head.bind? (o.step s.index) s.args = none
  rejected_iff : ∀ bindings, s.outcome = .guardRejected bindings ↔
    c.head.bind? (o.step s.index) s.args = some bindings ∧ c.guard bindings = .ok false
  selected_iff : ∀ bindings, s.outcome = .selected bindings ↔
    c.head.bind? (o.step s.index) s.args = some bindings ∧ c.guard bindings = .ok true

/-- The steps are those of the clauses that take the arguments, in the order of declaration and up
to the one whose body gave the result. -/
structure DispatchTrace.IsAccount (t : DispatchTrace R) (o : Occasion) (args : List Value)
    (cs : List (DeclaredClause (Except Panic) R)) : Prop where
  arity_eq : t.arity = args.length
  ascending : t.steps.Pairwise fun a b => a.index < b.index
  /-- Every step is that of a clause which takes the arguments. -/
  described : ∀ s ∈ t.steps, ∃ c, cs[s.index]? = some c ∧ c.Takes args.length ∧
    s.args.length = c.params.length ∧ s.Describes o args c.clause
  /-- No clause which takes the arguments is left out before the one that is selected. -/
  complete : ∀ i c, cs[i]? = some c → c.Takes args.length →
    (∀ k, t.selected? = some k → i ≤ k) → ∃ s ∈ t.steps, s.index = i
  /-- A clause that is selected is the last one. -/
  selected_last : ∀ before s after bindings, t.steps = before ++ s :: after →
    s.outcome = .selected bindings → after = []
  selected_iff : ∀ i, t.selected? = some i ↔
    ∃ s ∈ t.steps, ∃ bindings, s.outcome = .selected bindings ∧ s.index = i
  ok_iff : (∃ r, t.result = .ok r) ↔ ∃ s ∈ t.steps, ∃ bindings, s.outcome = .selected bindings
  /-- The body of the clause that is selected gave the result. -/
  body_eq : ∀ s ∈ t.steps, ∀ c bindings, cs[s.index]? = some c → s.outcome = .selected bindings →
    ∃ r, c.clause.body bindings = .ok r ∧ t.result = .ok r

/-! ### How the clauses are tried -/

/-- The clauses of `entries` are tried one by one, which takes these steps and comes to this
result; if none is selected the result is `failure`. -/
inductive Tried (o : Occasion) (args : List Value) (failure : MatchError) :
    List (Nat × Clause (Except Panic) R) → List ClauseStep → Except MatchError R → Prop where
  | exhausted : Tried o args failure [] [] (.error failure)
  | mismatch {i : Nat} {c : Clause (Except Panic) R} {rest : List (Nat × Clause (Except Panic) R)}
      {steps : List ClauseStep} {r : Except MatchError R}
      (hbind : c.head.bind? (o.step i) (c.head.fill args) = none)
      (hrest : Tried o args failure rest steps r) :
      Tried o args failure ((i, c) :: rest) (⟨i, c.head.fill args, .mismatch⟩ :: steps) r
  | rejected {i : Nat} {c : Clause (Except Panic) R} {rest : List (Nat × Clause (Except Panic) R)}
      {steps : List ClauseStep} {r : Except MatchError R} {bindings : List Value}
      (hbind : c.head.bind? (o.step i) (c.head.fill args) = some bindings)
      (hguard : c.guard bindings = .ok false) (hrest : Tried o args failure rest steps r) :
      Tried o args failure ((i, c) :: rest)
        (⟨i, c.head.fill args, .guardRejected bindings⟩ :: steps) r
  | selected {i : Nat} {c : Clause (Except Panic) R} {rest : List (Nat × Clause (Except Panic) R)}
      {bindings : List Value} {r : R}
      (hbind : c.head.bind? (o.step i) (c.head.fill args) = some bindings)
      (hguard : c.guard bindings = .ok true) (hbody : c.body bindings = .ok r) :
      Tried o args failure ((i, c) :: rest) [⟨i, c.head.fill args, .selected bindings⟩] (.ok r)

/-- What is tried in a bucket is told by the steps. -/
theorem Dispatcher.tried_of_traceAmong {o : Occasion} {args : List Value}
    {before : List ClauseStep} {entries : List (Nat × Clause (Except Panic) R)}
    {t : DispatchTrace R} (h : traceAmong o args before entries = .ok t) :
    t.arity = args.length ∧ ∃ steps, t.steps = before ++ steps ∧
      Tried o args (.noMatch o args) entries steps t.result := by
  -- Steps are added at the end, so those made before are carried along.
  induction entries generalizing before with
  | nil =>
    cases h
    exact ⟨rfl, [], (List.append_nil _).symm, .exhausted⟩
  | cons entry rest ih =>
    obtain ⟨i, c⟩ := entry
    rw [traceAmong] at h
    cases hbind : c.head.bind? (o.step i) (c.head.fill args) with
    | none =>
      simp only [hbind] at h
      obtain ⟨harity, steps, hsteps, htried⟩ := ih h
      refine ⟨harity, _, ?_, .mismatch hbind htried⟩
      rw [hsteps, List.append_assoc, List.singleton_append]
    | some bindings =>
      simp only [hbind] at h
      cases hguard : c.guard bindings with
      | error e =>
        rw [hguard] at h
        cases h
      | ok accepted =>
        rw [hguard] at h
        cases accepted with
        | false =>
          obtain ⟨harity, steps, hsteps, htried⟩ := ih h
          refine ⟨harity, _, ?_, .rejected hbind hguard htried⟩
          rw [hsteps, List.append_assoc, List.singleton_append]
        | true =>
          cases hbody : c.body bindings with
          | error e =>
            simp [hbody, bind, Except.bind] at h
          | ok r =>
            simp [hbody, bind, Except.bind, pure, Except.pure] at h
            subst h
            exact ⟨rfl, _, rfl, .selected hbind hguard hbody⟩

/-! ### What the steps tell -/

namespace Tried

variable {o : Occasion} {args : List Value} {failure : MatchError}
  {entries : List (Nat × Clause (Except Panic) R)} {steps : List ClauseStep}
  {r : Except MatchError R}

/-- The clauses are tried in their order, and none is passed over on the way. -/
theorem indices_prefix (h : Tried o args failure entries steps r) :
    steps.map ClauseStep.index <+: entries.map Prod.fst := by
  induction h with
  | exhausted => exact List.prefix_refl _
  | mismatch _ _ ih | rejected _ _ _ ih =>
    rw [List.map_cons, List.map_cons]
    exact (List.prefix_cons_inj _).mpr ih
  | selected => exact ⟨_, rfl⟩

theorem describes (h : Tried o args failure entries steps r) :
    ∀ s ∈ steps, ∃ c, (s.index, c) ∈ entries ∧ s.Describes o args c := by
  induction h with
  | exhausted => simp
  | mismatch hbind _ ih =>
    intro s hs
    rcases List.mem_cons.mp hs with rfl | hs
    · exact ⟨_, List.mem_cons_self, rfl, by simp [hbind], by simp [hbind], by simp [hbind]⟩
    · obtain ⟨c, hc, hdesc⟩ := ih s hs
      exact ⟨c, List.mem_cons_of_mem _ hc, hdesc⟩
  | rejected hbind hguard _ ih =>
    intro s hs
    rcases List.mem_cons.mp hs with rfl | hs
    · refine ⟨_, List.mem_cons_self, rfl, by simp [hbind], fun bindings => ?_, fun bindings => ?_⟩
      · simp only [hbind, StepOutcome.guardRejected.injEq, Option.some.injEq]
        exact ⟨fun h => ⟨h, h ▸ hguard⟩, And.left⟩
      · simp only [hbind, reduceCtorEq, Option.some.injEq, false_iff]
        rintro ⟨rfl, h⟩
        rw [hguard] at h
        cases h
    · obtain ⟨c, hc, hdesc⟩ := ih s hs
      exact ⟨c, List.mem_cons_of_mem _ hc, hdesc⟩
  | selected hbind hguard _ =>
    intro s hs
    obtain rfl := List.mem_singleton.mp hs
    refine ⟨_, List.mem_cons_self, rfl, by simp [hbind], fun bindings => ?_, fun bindings => ?_⟩
    · simp only [hbind, reduceCtorEq, Option.some.injEq, false_iff]
      rintro ⟨rfl, h⟩
      rw [hguard] at h
      cases h
    · simp only [hbind, StepOutcome.selected.injEq, Option.some.injEq]
      exact ⟨fun h => ⟨h, h ▸ hguard⟩, And.left⟩

/-- Only the last step can be a selection. -/
theorem selected_last (h : Tried o args failure entries steps r) {before after : List ClauseStep}
    {s : ClauseStep} {bindings : List Value} (hsteps : steps = before ++ s :: after)
    (hs : s.outcome = .selected bindings) : after = [] := by
  induction h generalizing before with
  | exhausted => simp at hsteps
  | mismatch _ _ ih | rejected _ _ _ ih =>
    cases before with
    | nil =>
      obtain ⟨rfl, _⟩ := List.cons.inj hsteps
      cases hs
    | cons first before => exact ih (List.cons.inj hsteps).2
  | selected =>
    cases before with
    | nil => exact (List.cons.inj hsteps).2.symm
    | cons first before => simp at hsteps

theorem findSome?_selected_iff (h : Tried o args failure entries steps r) (i : Nat) :
    steps.findSome? ClauseStep.selectedIndex? = some i ↔
      ∃ s ∈ steps, ∃ bindings, s.outcome = .selected bindings ∧ s.index = i := by
  induction h with
  | exhausted => simp
  | mismatch _ _ ih | rejected _ _ _ ih =>
    simpa [List.findSome?_cons, ClauseStep.selectedIndex?] using ih
  | selected => simp [List.findSome?_cons, ClauseStep.selectedIndex?]

theorem ok_iff (h : Tried o args failure entries steps r) :
    (∃ a, r = .ok a) ↔ ∃ s ∈ steps, ∃ bindings, s.outcome = .selected bindings := by
  induction h with
  | exhausted => simp
  | mismatch _ _ ih | rejected _ _ _ ih => simpa using ih
  | selected => simp

theorem body_eq (h : Tried o args failure entries steps r) :
    ∀ s ∈ steps, ∀ bindings, s.outcome = .selected bindings →
      ∃ c a, (s.index, c) ∈ entries ∧ c.body bindings = .ok a ∧ r = .ok a := by
  induction h with
  | exhausted => simp
  | mismatch _ _ ih | rejected _ _ _ ih =>
    intro s hs bindings hsel
    rcases List.mem_cons.mp hs with rfl | hs
    · cases hsel
    · obtain ⟨c, a, hc, hbody, hr⟩ := ih s hs bindings hsel
      exact ⟨c, a, List.mem_cons_of_mem _ hc, hbody, hr⟩
  | selected _ _ hbody =>
    intro s hs bindings hsel
    obtain rfl := List.mem_singleton.mp hs
    cases hsel
    exact ⟨_, _, List.mem_cons_self, hbody, rfl⟩

/-- All clauses are tried, or all those up to the one that is selected. -/
theorem complete (h : Tried o args failure entries steps r)
    (hasc : entries.Pairwise fun a b => a.1 < b.1) {i : Nat} {c : Clause (Except Panic) R}
    (hc : (i, c) ∈ entries)
    (hi : ∀ k, steps.findSome? ClauseStep.selectedIndex? = some k → i ≤ k) :
    ∃ s ∈ steps, s.index = i := by
  induction h with
  | exhausted => simp at hc
  | mismatch _ _ ih | rejected _ _ _ ih =>
    rcases List.mem_cons.mp hc with heq | hc
    · cases heq
      exact ⟨_, List.mem_cons_self, rfl⟩
    · obtain ⟨s, hs, rfl⟩ := ih (List.pairwise_cons.mp hasc).2 hc hi
      exact ⟨s, List.mem_cons_of_mem _ hs, rfl⟩
  | selected =>
    rcases List.mem_cons.mp hc with heq | hc
    · cases heq
      exact ⟨_, List.mem_cons_self, rfl⟩
    -- All later clauses have greater numbers than the one that is selected.
    · have hlt := (List.pairwise_cons.mp hasc).1 _ hc
      exact absurd (hi _ rfl) (Nat.not_le_of_gt hlt)

end Tried

namespace Dispatcher

open DeclaredClause

theorem tried_of_callWithTrace {cs : List (Clause (Except Panic) R)} {o : Occasion}
    {args : List Value} {t : DispatchTrace R}
    (h : (ofClauses cs).callWithTrace o args = .ok t) :
    t.arity = args.length ∧ ∃ failure, Tried o args failure
      (ArityTable.taking args.length 0 cs) t.steps t.result := by
  rw [callWithTrace, ofClauses, ArityTable.bucket?_ofClauses] at h
  by_cases hnone : ArityTable.taking args.length 0 cs = []
  · rw [if_pos hnone] at h
    cases h
    rw [hnone]
    exact ⟨rfl, _, .exhausted⟩
  · rw [if_neg hnone] at h
    obtain ⟨harity, steps, hsteps, htried⟩ := tried_of_traceAmong h
    rw [List.nil_append] at hsteps
    rw [hsteps]
    exact ⟨harity, _, htried⟩

theorem mem_taking_clauses_iff {n i : Nat} {c : Clause (Except Panic) R}
    {cs : List (DeclaredClause (Except Panic) R)} :
    (i, c) ∈ ArityTable.taking n 0 (cs.map clause) ↔
      ∃ d, cs[i]? = some d ∧ d.Takes n ∧ d.clause = c := by
  rw [ArityTable.mem_taking_iff, Nat.sub_zero, List.getElem?_map, Option.map_eq_some_iff]
  constructor
  · rintro ⟨_, ⟨d, hd, rfl⟩, htakes⟩
    exact ⟨d, hd, (takes_head_iff d n).mp htakes, rfl⟩
  · rintro ⟨d, hd, htakes, rfl⟩
    exact ⟨Nat.zero_le _, ⟨d, hd, rfl⟩, (takes_head_iff d n).mpr htakes⟩

theorem length_fill_of_takes (c : DeclaredClause (Except Panic) R) {args : List Value}
    (h : c.Takes args.length) : (c.clause.head.fill args).length = c.params.length := by
  have hd := ClauseHead.length_defaults_le c.compiled
  rw [ClauseHead.length_fill hd ((takes_head_iff c _).mpr h)]
  obtain ⟨ms, hms, hhead⟩ := ClauseHead.compile_eq_ok_iff.mp c.compiled
  rw [hhead]
  exact ClauseHead.length_compileParams hms

/-- **A call with an account has the same outcome as the call, and accounts for it**: the outcome
is a value, an error or the reason for which a guard is aborted, and if it is not the latter every
clause that was tried is named, with what came of it. -/
theorem callWithTrace_isAccount (cs : List (DeclaredClause (Except Panic) R)) (o : Occasion)
    (args : List Value) :
    DispatchTrace.result <$> (ofClauses (cs.map clause)).callWithTrace o args =
      (ofClauses (cs.map clause)).call o args ∧
    ∀ t, (ofClauses (cs.map clause)).callWithTrace o args = .ok t → t.IsAccount o args cs := by
  refine ⟨result_callWithTrace _ o args, fun t ht => ?_⟩
  obtain ⟨harity, failure, htried⟩ := tried_of_callWithTrace ht
  have hasc := ArityTable.pairwise_taking args.length 0 (cs.map clause)
  refine ⟨harity, ?_, fun s hs => ?_, fun i c hc htakes hi => ?_, ?_, htried.findSome?_selected_iff,
    htried.ok_iff, fun s hs c bindings hc hsel => ?_⟩
  · have hindices := (List.pairwise_map.mpr hasc).sublist htried.indices_prefix.sublist
    exact List.pairwise_map.mp hindices
  · obtain ⟨c, hc, hdesc⟩ := htried.describes s hs
    obtain ⟨d, hd, htakes, rfl⟩ := mem_taking_clauses_iff.mp hc
    refine ⟨d, hd, htakes, ?_, hdesc⟩
    rw [hdesc.args_eq]
    exact length_fill_of_takes d htakes
  · exact htried.complete hasc (mem_taking_clauses_iff.mpr ⟨c, hc, htakes, rfl⟩) hi
  · intro before s after bindings hsteps hsel
    exact htried.selected_last hsteps hsel
  · obtain ⟨c', a, hc', hbody, hr⟩ := htried.body_eq s hs bindings hsel
    obtain ⟨d, hd, _, rfl⟩ := mem_taking_clauses_iff.mp hc'
    obtain rfl : d = c := Option.some.inj (hd.symm.trans hc)
    exact ⟨a, hbody, hr⟩

/-- A clause that does not match, one whose guard rejects the arguments with the missing one filled
in, one that takes another number of them, and the one that is selected. -/
theorem callWithTrace_isAccount_fourth :
    ∃ cs : List (DeclaredClause (Except Panic) Nat),
      cs.map DeclaredClause.params = [[.bound (.int 9)],
        [.var ⟨some "x", none⟩, .var ⟨some "y", some (.int 5)⟩], [.wildcard, .wildcard],
        [.wildcard]] ∧
      ∃ t, (ofClauses (cs.map clause)).callWithTrace .start [.int 1] = .ok t ∧
        t.IsAccount .start [.int 1] cs ∧ t.steps.map ClauseStep.index = [0, 1, 3] ∧
        t.selected? = some 3 :=
  ⟨[⟨[.bound (.int 9)], ⟨⟨[.equalTo (.int 9)], []⟩, Guard.always, fun _ => .ok 1⟩, rfl⟩,
      ⟨[.var ⟨some "x", none⟩, .var ⟨some "y", some (.int 5)⟩],
        ⟨⟨[.var (some "x"), .var (some "y")], [(1, .int 5)]⟩, fun bindings =>
          .ok (bindings == [.int 1, .int 1]), fun _ => .ok 2⟩, rfl⟩,
      ⟨[.wildcard, .wildcard], ⟨⟨[.anything, .anything], []⟩, Guard.always, fun _ => .ok 3⟩, rfl⟩,
      ⟨[.wildcard], ⟨⟨[.anything], []⟩, Guard.always, fun _ => .ok 4⟩, rfl⟩],
    rfl, _, rfl, (callWithTrace_isAccount _ .start [.int 1]).2 _ rfl, rfl, rfl⟩

end Dispatcher

end StructuralMatching
