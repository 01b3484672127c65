/-
The head of a clause and the parameters it was made of.

* `ClauseHead.Takes` — a head takes a number of arguments;
* `ClauseHead.fewest` — how few arguments will do, by the parameters;
* `ClauseHead.takes_iff_of_compile` — the numbers between the fewest arguments and all of them;
* `ClauseHead.length_fill` — with the missing ones filled in there are as many arguments as
  parameters.
-/
import StructuralMatching.Clause.Head

namespace StructuralMatching.ClauseHead

/-- Neither too few arguments for the defaults to help nor too many. -/
def Takes (h : ClauseHead) (n : Nat) : Prop := h.minArity ≤ n ∧ n ≤ h.arity

instance (h : ClauseHead) (n : Nat) : Decidable (h.Takes n) := inferInstanceAs (Decidable (_ ∧ _))

/-- The number of parameters that are not variables with a default. -/
def fewest (params : List Pattern) : Nat :=
  params.length - params.countP fun p => p.default?.isSome

theorem compileParams_cons_eq_ok_iff {p : Pattern} {ps : List Pattern} {ms : List Matcher} :
    compileParams (p :: ps) = .ok ms ↔
      ∃ m rest, p.compile = .ok m ∧ compileParams ps = .ok rest ∧ ms = m :: rest := by
  rw [compileParams]
  cases p.compile with
  | error e => simp
  | ok m => cases hps : compileParams ps <;> simp [eq_comm]

theorem length_compileParams {params : List Pattern} {ms : List Matcher}
    (h : compileParams params = .ok ms) : ms.length = params.length := by
  induction params generalizing ms with
  | nil => cases h; rfl
  | cons p ps ih =>
    obtain ⟨m, rest, _, hps, rfl⟩ := compileParams_cons_eq_ok_iff.mp h
    rw [List.length_cons, List.length_cons, ih hps]

theorem length_defaultsFrom (i : Nat) (params : List Pattern) :
    (defaultsFrom i params).length = params.countP fun p => p.default?.isSome := by
  induction params generalizing i with
  | nil => rfl
  | cons p ps ih =>
    rw [defaultsFrom]
    cases hp : p.default? with
    | none =>
      rw [List.countP_cons_of_neg (by simp [hp])]
      exact ih (i + 1)
    | some d =>
      rw [List.countP_cons_of_pos (by simp [hp])]
      exact congrArg Nat.succ (ih (i + 1))

theorem compile_eq_ok_iff {params : List Pattern} {h : ClauseHead} :
    compile params = .ok h ↔
      ∃ ms, compileParams params = .ok ms ∧ h = ⟨ms, defaultsFrom 0 params⟩ := by
  rw [compile]
  cases compileParams params with
  | error e =>
    refine iff_of_false (fun h => nomatch h) ?_
    rintro ⟨ms, hms, _⟩
    cases hms
  | ok ms =>
    constructor
    · intro h
      cases h
      exact ⟨ms, rfl, rfl⟩
    · rintro ⟨_, hms, rfl⟩
      cases hms
      rfl

/-- A head takes as many arguments as there are parameters, or fewer as far as there are
defaults. -/
theorem takes_iff_of_compile {params : List Pattern} {h : ClauseHead}
    (hc : compile params = .ok h) (n : Nat) :
    h.Takes n ↔ fewest params ≤ n ∧ n ≤ params.length := by
  obtain ⟨ms, hms, rfl⟩ := compile_eq_ok_iff.mp hc
  rw [Takes, minArity, arity, length_compileParams hms, length_defaultsFrom, fewest]

/-! ### Missing arguments -/

theorem length_foldl_insertDefault (ds : List (Nat × Value)) (args : List Value) :
    (ds.foldl insertDefault args).length = args.length + ds.length := by
  induction ds generalizing args with
  | nil => rfl
  | cons d ds ih =>
    have hone : (insertDefault args d).length = args.length + 1 := by
      rw [insertDefault]
      exact List.length_insertIdx_of_le_length (Nat.min_le_right _ _) _
    rw [List.foldl_cons, ih, hone, List.length_cons]
    omega

theorem length_defaults_le {params : List Pattern} {h : ClauseHead}
    (hc : compile params = .ok h) : h.defaults.length ≤ h.arity := by
  obtain ⟨ms, hms, rfl⟩ := compile_eq_ok_iff.mp hc
  rw [arity, length_defaultsFrom, length_compileParams hms]
  exact List.countP_le_length

/-- As many arguments as parameters, if their number is one that the head takes. -/
theorem length_fill {h : ClauseHead} (hd : h.defaults.length ≤ h.arity) {args : List Value}
    (ht : h.Takes args.length) : (h.fill args).length = h.arity := by
  obtain ⟨hmin, hmax⟩ := ht
  rw [minArity] at hmin
  rw [fill]
  split
  · rename_i hnone
    omega
  · show (List.foldl insertDefault args _).length = _
    rw [length_foldl_insertDefault, List.length_drop]
    omega

end StructuralMatching.ClauseHead
