/-
Clauses looked up by the number of arguments.

A table of clauses is asked before any clause is tried.  What it answers for a number of arguments
can be read off the list of clauses, and so can which numbers it has an answer for:

* `ArityTable.IsBucket` — a bucket holds the clauses that take so many arguments;
* `ArityTable.IsTable` — all buckets do, and no clause that was found by its number of arguments is
  lost over that number later on;
* `ArityTable.ofClauses_isTable` — the table of a list of clauses;
* `FailsByArity` — a function fails for the number of its arguments exactly if that is not one of
  its arities;
* `clauses_found_by_arity` — all this for functions given by clauses, deferred ones among them.

Design notes: a head is any list of matchers with any list of defaults, and one with more defaults
than parameters would take back arguments that it never got.  Heads that were made of parameters
have fewer, hence `Headed.IsDeclared`.
-/
import StructuralMatching.Dispatch.Async
import StructuralMatching.Proofs.Dispatch.Scan
import StructuralMatching.Proofs.Polling

namespace StructuralMatching

/-- The head of a clause was made of parameters. -/
def Headed.IsDeclared {C : Type} [Headed C] (c : C) : Prop :=
  ∃ params, ClauseHead.compile params = .ok (head c)

namespace ClauseHead

/-- With the missing ones filled in, the number of arguments that a head takes is right: nothing but
the parameters themselves decides whether they match. -/
theorem bind?_fill {h : ClauseHead} (hd : h.defaults.length ≤ h.arity) {args : List Value}
    (ht : h.Takes args.length) (o : Occasion) :
    h.bind? o (h.fill args) =
      (bindFrom? o 0 h.params (h.fill args) .empty).map Bindings.values := by
  rw [bind?, if_pos (length_fill hd ht)]

end ClauseHead

/-! ### Tables -/

namespace ArityTable

variable {C : Type}

theorem mem_arities_iff (t : ArityTable C) (n : Nat) :
    n ∈ t.arities ↔ ∃ bucket, t.bucket? n = some bucket := by
  rw [arities, List.mem_map]
  constructor
  · rintro ⟨⟨k, bucket⟩, hmem, rfl⟩
    cases hfound : t.bucket? k with
    | none => simpa using List.lookup_eq_none_iff.mp hfound _ hmem
    | some found => exact ⟨found, rfl⟩
  · rintro ⟨bucket, hfound⟩
    obtain ⟨before, after, heq, _⟩ := List.lookup_eq_some_iff.mp hfound
    exact ⟨(n, bucket), by simp [heq], rfl⟩

variable [Headed C]

/-- The bucket of a number of arguments: the clauses that take so many, each of them once, with
their numbers and in the order of declaration. -/
structure IsBucket (cs : List C) (n : Nat) (bucket : List (Nat × C)) : Prop where
  mem_iff : ∀ i c, (i, c) ∈ bucket ↔ cs[i]? = some c ∧ (Headed.head c).Takes n
  ascending : bucket.Pairwise fun a b => a.1 < b.1

/-- The table of a list of clauses. -/
structure IsTable (t : ArityTable C) (cs : List C) : Prop where
  bucket : ∀ n bucket, t.bucket? n = some bucket → IsBucket cs n bucket
  absent_iff : ∀ n, t.bucket? n = none ↔ ∀ c ∈ cs, ¬(Headed.head c).Takes n
  ascending : t.arities.Pairwise (· < ·)
  mem_arities_iff : ∀ n, n ∈ t.arities ↔ ∃ bucket, t.bucket? n = some bucket
  size_eq : t.size = cs.length
  /-- There are never more defaults than parameters. -/
  minArity_add : ∀ c ∈ cs,
    (Headed.head c).minArity + (Headed.head c).defaults.length = (Headed.head c).arity
  /-- A clause that is found gets as many arguments as it has parameters. -/
  length_fill : ∀ args bucket, t.bucket? args.length = some bucket → ∀ entry ∈ bucket,
    ((Headed.head entry.2).fill args).length = (Headed.head entry.2).arity
  /-- So it is never rejected for their number. -/
  bind?_fill : ∀ args bucket, t.bucket? args.length = some bucket → ∀ entry ∈ bucket, ∀ o,
    (Headed.head entry.2).bind? o ((Headed.head entry.2).fill args) =
      (ClauseHead.bindFrom? o 0 (Headed.head entry.2).params
        ((Headed.head entry.2).fill args) .empty).map Bindings.values

theorem taking_eq_nil_iff {n i : Nat} {cs : List C} :
    taking n i cs = [] ↔ ∀ c ∈ cs, ¬(Headed.head c).Takes n := by
  induction cs generalizing i with
  | nil => simp [taking]
  | cons c cs ih =>
    rw [taking, List.forall_mem_cons]
    split
    · rename_i hc
      exact iff_of_false (List.cons_ne_nil _ _) fun h => h.1 hc
    · rename_i hc
      rw [ih]
      exact (and_iff_right hc).symm

theorem bucket?_ofClauses_eq_some_iff {n : Nat} {cs : List C} {bucket : List (Nat × C)} :
    (ofClauses cs).bucket? n = some bucket ↔ taking n 0 cs ≠ [] ∧ bucket = taking n 0 cs := by
  rw [bucket?_ofClauses]
  by_cases h : taking n 0 cs = []
  · rw [if_pos h]
    exact iff_of_false nofun fun hand => hand.1 h
  · rw [if_neg h, Option.some_inj]
    exact ⟨fun heq => ⟨h, heq.symm⟩, fun hand => hand.2.symm⟩

theorem isBucket_taking (n : Nat) (cs : List C) : IsBucket cs n (taking n 0 cs) :=
  ⟨fun i c => by rw [mem_taking_iff, Nat.sub_zero, and_iff_right (Nat.zero_le i)],
    pairwise_taking n 0 cs⟩

/-- **The table of a list of clauses holds in every bucket what it should**, and there are no other
buckets. -/
theorem ofClauses_isTable {cs : List C} (hcs : ∀ c ∈ cs, Headed.IsDeclared c) :
    (ofClauses cs).IsTable cs := by
  have hle : ∀ c ∈ cs, (Headed.head c).defaults.length ≤ (Headed.head c).arity := by
    intro c hc
    obtain ⟨params, hparams⟩ := hcs c hc
    exact ClauseHead.length_defaults_le hparams
  have hbucket : ∀ n bucket, (ofClauses cs).bucket? n = some bucket → IsBucket cs n bucket := by
    intro n bucket h
    rw [(bucket?_ofClauses_eq_some_iff.mp h).2]
    exact isBucket_taking n cs
  have hentry : ∀ (args : List Value) bucket, (ofClauses cs).bucket? args.length = some bucket →
      ∀ entry ∈ bucket, entry.2 ∈ cs ∧ (Headed.head entry.2).Takes args.length := by
    rintro args bucket h ⟨i, c⟩ hmem
    obtain ⟨hc, htakes⟩ := ((hbucket _ _ h).mem_iff i c).mp hmem
    exact ⟨List.mem_of_getElem? hc, htakes⟩
  refine ⟨hbucket, fun n => ?_, ?_, mem_arities_iff _, rfl, fun c hc => ?_, ?_, ?_⟩
  · rw [bucket?_ofClauses, ← taking_eq_nil_iff (i := 0)]
    split
    · rename_i hnone
      exact iff_of_true rfl hnone
    · rename_i hsome
      exact iff_of_false nofun hsome
  · exact List.pairwise_map.mpr (Proper.ofClauses cs).ascending
  · exact Nat.sub_add_cancel (hle c hc)
  · intro args bucket h entry hmem
    obtain ⟨hc, htakes⟩ := hentry args bucket h entry hmem
    exact ClauseHead.length_fill (hle _ hc) htakes
  · intro args bucket h entry hmem o
    obtain ⟨hc, htakes⟩ := hentry args bucket h entry hmem
    exact ClauseHead.bind?_fill (hle _ hc) htakes o

end ArityTable

/-! ### Calls -/

/-- The value of the clause that is selected, or an error that shows the arguments. -/
def valueOrNoMatch {R : Type} (o : Occasion) (args : List Value) :
    Option R → Except MatchError R
  | some r => .ok r
  | none => .error (.noMatch o args)

/-- A function that fails for the number of its arguments, and does nothing else, if that is not one
of its arities; and if it is, all that can be wrong is that no clause is selected. -/
structure FailsByArity {m : Type → Type} [Monad m] {R : Type} (arities : List Nat)
    (call : Occasion → List Value → m (Except MatchError R)) : Prop where
  missing : ∀ o args, args.length ∉ arities →
    call o args = pure (.error (.arityNotFound o args))
  found : ∀ o args, args.length ∈ arities →
    ∃ value? : m (Option R), call o args = valueOrNoMatch o args <$> value?

/-- What a look-up decides of a call. -/
theorem ArityTable.failsByArity {m : Type → Type} [Monad m] {R C : Type} (t : ArityTable C)
    {call : Occasion → List Value → m (Except MatchError R)}
    (hnone : ∀ o args, t.bucket? args.length = none →
      call o args = pure (.error (.arityNotFound o args)))
    (hsome : ∀ o args bucket, t.bucket? args.length = some bucket →
      ∃ value? : m (Option R), call o args = valueOrNoMatch o args <$> value?) :
    FailsByArity t.arities call := by
  refine ⟨fun o args hn => hnone o args ?_, fun o args hn => ?_⟩
  · rw [Option.eq_none_iff_forall_ne_some]
    exact fun bucket hfound => hn ((mem_arities_iff t _).mpr ⟨bucket, hfound⟩)
  · obtain ⟨bucket, hfound⟩ := (mem_arities_iff t _).mp hn
    exact hsome o args bucket hfound

namespace Dispatcher

variable {m : Type → Type} [Monad m] [LawfulMonad m] {R : Type}

theorem exists_callAmong_eq (o : Occasion) (args : List Value)
    (entries : List (Nat × Clause m R)) :
    ∃ value? : m (Option R), callAmong o args entries = valueOrNoMatch o args <$> value? := by
  induction entries with
  | nil => exact ⟨pure none, (map_pure (valueOrNoMatch o args) none).symm⟩
  | cons entry rest ih =>
    obtain ⟨i, c⟩ := entry
    obtain ⟨value?, hrest⟩ := ih
    rw [callAmong_cons]
    cases c.head.bind? (o.step i) (c.head.fill args) with
    | none => exact ⟨value?, hrest⟩
    | some bindings =>
      refine ⟨c.guard bindings >>= fun accepted =>
        if accepted then some <$> c.body bindings else value?, ?_⟩
      rw [map_bind]
      refine congrArg (c.guard bindings >>= ·) (funext fun accepted => ?_)
      cases accepted with
      | true => simp [valueOrNoMatch]
      | false => exact hrest

theorem call_failsByArity (d : Dispatcher m R) : FailsByArity d.arities d.call := by
  refine d.table.failsByArity (fun o args h => ?_) fun o args bucket h => ?_
  · rw [call, h]
  · rw [call, h]
    exact exists_callAmong_eq o args bucket

end Dispatcher

namespace AsyncDispatcher

variable {ε R : Type}

theorem exists_callAmong_eq (o : Occasion) (args : List Value)
    (entries : List (Nat × AsyncClause ε R)) :
    ∃ value? : Deferred ε (Option R),
      callAmong o args entries = valueOrNoMatch o args <$> value? := by
  have hbody : ∀ d : Deferred ε R, (d.bind fun r => .done (.ok r)) =
      valueOrNoMatch o args <$> (some <$> d) := by
    intro d
    rw [Functor.map_map]
    exact bind_pure_comp Except.ok d
  induction entries with
  | nil => exact ⟨.done none, rfl⟩
  | cons entry rest ih =>
    obtain ⟨i, c⟩ := entry
    obtain ⟨value?, hrest⟩ := ih
    rw [callAmong]
    cases c.head.bind? (o.step i) (c.head.fill args) with
    | none => exact ⟨value?, hrest⟩
    | some bindings =>
      cases c.guard with
      | none => exact ⟨some <$> c.body bindings, hbody _⟩
      | some guard =>
        refine ⟨guard bindings >>= fun accepted =>
          if accepted then some <$> c.body bindings else value?, ?_⟩
        rw [map_bind]
        refine congrArg (Deferred.bind (guard bindings)) (funext fun accepted => ?_)
        cases accepted with
        | true => exact hbody _
        | false => exact hrest

theorem call_failsByArity (d : AsyncDispatcher ε R) : FailsByArity d.arities d.call := by
  refine d.table.failsByArity (fun o args h => ?_) fun o args bucket h => ?_
  · rw [call, h]
    rfl
  · rw [call, h]
    exact exists_callAmong_eq o args bucket

end AsyncDispatcher

/-- **Clauses are found by the number of arguments.**  The table of a list of clauses, whose guards
and bodies may be deferred, is right for every number, and a call fails for the number of its
arguments exactly if no clause takes so many. -/
theorem clauses_found_by_arity {m : Type → Type} [Monad m] [LawfulMonad m] {ε R S : Type}
    (cs : List (Clause m R)) (ds : List (AsyncClause ε S)) (hcs : ∀ c ∈ cs, Headed.IsDeclared c)
    (hds : ∀ d ∈ ds, Headed.IsDeclared d) :
    (Dispatcher.ofClauses cs).table.IsTable cs ∧
    FailsByArity (Dispatcher.ofClauses cs).arities (Dispatcher.ofClauses cs).call ∧
    (AsyncDispatcher.ofClauses ds).table.IsTable ds ∧
    FailsByArity (AsyncDispatcher.ofClauses ds).arities (AsyncDispatcher.ofClauses ds).call :=
  ⟨ArityTable.ofClauses_isTable hcs, Dispatcher.call_failsByArity _,
    ArityTable.ofClauses_isTable hds, AsyncDispatcher.call_failsByArity _⟩

/-- A clause with a default shares the lower of its two buckets with another one. -/
theorem clauses_found_by_arity_shared :
    ∃ (cs : List (Clause (Except Panic) Nat)) (ds : List (AsyncClause Unit Nat)),
      cs.map Clause.head = [⟨[.var (some "x"), .var (some "y")], [(1, .int 5)]⟩,
        ⟨[.anything], []⟩] ∧
      ds.map AsyncClause.head = cs.map Clause.head ∧
      (∀ c ∈ cs, Headed.IsDeclared c) ∧ (∀ d ∈ ds, Headed.IsDeclared d) ∧
      (Dispatcher.ofClauses cs).arities = [1, 2] ∧
      (∃ bucket, (Dispatcher.ofClauses cs).table.bucket? 1 = some bucket ∧
        bucket.map Prod.fst = [0, 1] ∧ ArityTable.IsBucket cs 1 bucket) ∧
      (Dispatcher.ofClauses cs).call .start [] = .ok (.error (.arityNotFound .start [])) ∧
      (AsyncDispatcher.ofClauses ds).call .start [] =
        .done (.error (.arityNotFound .start [])) := by
  have hcs : ∀ c ∈ ([⟨⟨[.var (some "x"), .var (some "y")], [(1, .int 5)]⟩, Guard.always,
      fun _ => .ok 1⟩, ⟨⟨[.anything], []⟩, Guard.always, fun _ => .ok 2⟩] :
      List (Clause (Except Panic) Nat)), Headed.IsDeclared c := by
    simp only [List.forall_mem_cons]
    exact ⟨⟨[.var ⟨some "x", none⟩, .var ⟨some "y", some (.int 5)⟩], rfl⟩, ⟨[.wildcard], rfl⟩,
      nofun⟩
  have hds : ∀ d ∈ ([⟨⟨[.var (some "x"), .var (some "y")], [(1, .int 5)]⟩, none,
      fun _ => .done 1⟩, ⟨⟨[.anything], []⟩, none, fun _ => .done 2⟩] :
      List (AsyncClause Unit Nat)), Headed.IsDeclared d := by
    simp only [List.forall_mem_cons]
    exact ⟨⟨[.var ⟨some "x", none⟩, .var ⟨some "y", some (.int 5)⟩], rfl⟩, ⟨[.wildcard], rfl⟩,
      nofun⟩
  obtain ⟨htable, hcall, _, hasync⟩ := clauses_found_by_arity _ _ hcs hds
  exact ⟨_, _, rfl, rfl, hcs, hds, rfl, ⟨_, rfl, rfl, htable.bucket 1 _ rfl⟩,
    hcall.missing .start [] (by decide), hasync.missing .start [] (by decide)⟩

end StructuralMatching
