/-
Missing arguments and the defaults that stand in for them.

Defaults are put into a growing list one by one, from the left.  The parameters that have one may
stand anywhere among the others, so it has to be seen that each default comes to rest at its own
position:

* `ClauseHead.standIn?` — the default of a parameter, if it is one of the last that have one;
* `ClauseHead.given` — the arguments at all other positions;
* `ClauseHead.IsFilling` — every default at its position, and the arguments around them in order;
* `ClauseHead.spread` — arguments and defaults dealt out to the parameters from the left;
* `ClauseHead.foldl_insertDefault` — putting defaults in one by one comes to the same;
* `ClauseHead.position_le` — no position lies beyond the end of the list;
* `ClauseHead.fill_isFilling` — what a head makes of its arguments.

Design notes: what lies to the left of a parameter is settled when its turn comes, and there is just
one value for each of the parameters before it.  This invariant carries the inductions, all of which
go through the parameters and ask whether something stands in for the first of them.
-/
import Mathlib.Data.List.Basic
import StructuralMatching.Dispatch.Basic
import StructuralMatching.Proofs.Clause.Head

namespace StructuralMatching.ClauseHead

/-- How many parameters have a default. -/
def defaultCount (params : List Pattern) : Nat := params.countP fun p => p.default?.isSome

/-- The default that stands in at a position: that of the parameter there, if it has one and fewer
than `missing` of the parameters after it do. -/
def standIn? (params : List Pattern) (missing i : Nat) : Option Value :=
  if defaultCount (params.drop (i + 1)) < missing then params[i]?.bind Pattern.default? else none

/-- The values at the positions where nothing stands in. -/
def given (params : List Pattern) (missing : Nat) (filled : List Value) : List Value :=
  (filled.zipIdx.filter fun a => (standIn? params missing a.2).isNone).map Prod.fst

/-- The last `missing` defaults are filled in: there is one value for every parameter, these
defaults are at their positions, and at all others there are the arguments in order. -/
structure IsFilling (params : List Pattern) (missing : Nat) (args filled : List Value) : Prop where
  length_eq : filled.length = params.length
  default_eq : ∀ i d, standIn? params missing i = some d → filled[i]? = some d
  given_eq : given params missing filled = args

/-- The last `missing` defaults of parameters of which the first has position `i`. -/
def lastDefaults (missing i : Nat) (params : List Pattern) : List (Nat × Value) :=
  (defaultsFrom i params).drop (defaultCount params - missing)

/-- One value for every parameter, from the left: a default where one stands in, and the next one of
the arguments everywhere else. -/
def spread (missing : Nat) : List Pattern → List Value → List Value
  | [], args => args
  | p :: ps, args =>
    match standIn? (p :: ps) missing 0 with
    | some d => d :: spread missing ps args
    | none =>
      match args with
      | [] => []
      | a :: rest => a :: spread missing ps rest

variable {p : Pattern} {ps params : List Pattern} {missing : Nat}

/-! ### The first parameter -/

theorem defaultCount_le (params : List Pattern) : defaultCount params ≤ params.length :=
  List.countP_le_length

theorem defaultCount_cons_of_some {d : Value} (hp : p.default? = some d) :
    defaultCount (p :: ps) = defaultCount ps + 1 :=
  List.countP_cons_of_pos (by simp [hp])

theorem defaultCount_cons_of_none (hp : p.default? = none) :
    defaultCount (p :: ps) = defaultCount ps :=
  List.countP_cons_of_neg (by simp [hp])

theorem standIn?_zero_eq_some_iff {d : Value} :
    standIn? (p :: ps) missing 0 = some d ↔ defaultCount ps < missing ∧ p.default? = some d := by
  show (if defaultCount ps < missing then p.default? else none) = some d ↔ _
  by_cases hlt : defaultCount ps < missing
  · simp [hlt]
  · simp [hlt]

theorem standIn?_zero_eq_none_iff :
    standIn? (p :: ps) missing 0 = none ↔ missing ≤ defaultCount ps ∨ p.default? = none := by
  show (if defaultCount ps < missing then p.default? else none) = none ↔ _
  by_cases hlt : defaultCount ps < missing
  · simp [hlt, Nat.not_le.mpr hlt]
  · simp [hlt, Nat.not_lt.mp hlt]

theorem spread_cons_of_some {d : Value} (h : standIn? (p :: ps) missing 0 = some d)
    (args : List Value) : spread missing (p :: ps) args = d :: spread missing ps args := by
  simp only [spread, h]

theorem spread_cons_of_none (h : standIn? (p :: ps) missing 0 = none) (a : Value)
    (rest : List Value) :
    spread missing (p :: ps) (a :: rest) = a :: spread missing ps rest := by
  simp only [spread, h]

theorem given_cons (p : Pattern) (ps : List Pattern) (missing : Nat) (v : Value)
    (vs : List Value) : given (p :: ps) missing (v :: vs) =
      (if (standIn? (p :: ps) missing 0).isNone then [v] else []) ++ given ps missing vs := by
  have hrest : ((vs.zipIdx 1).filter fun a => (standIn? (p :: ps) missing a.2).isNone).map Prod.fst
      = given ps missing vs := by
    rw [List.zipIdx_succ, List.filter_map, List.map_map]
    rfl
  rw [given, List.zipIdx_cons, List.filter_cons]
  split
  · rw [List.map_cons, Nat.zero_add, hrest]
    rfl
  · rw [Nat.zero_add, hrest]
    rfl

/-! ### The last defaults -/

/-- Something stands in for the first parameter, so all defaults after it stand in as well. -/
theorem lastDefaults_cons_of_some {d : Value} (h : standIn? (p :: ps) missing 0 = some d)
    (i : Nat) : lastDefaults missing i (p :: ps) = (i, d) :: lastDefaults missing (i + 1) ps := by
  obtain ⟨hlt, hp⟩ := standIn?_zero_eq_some_iff.mp h
  have hall : defaultCount ps + 1 - missing = 0 := by omega
  have hrest : defaultCount ps - missing = 0 := by omega
  rw [lastDefaults, lastDefaults, defaultCount_cons_of_some hp, defaultsFrom, hp, hall, hrest,
    List.drop_zero, List.drop_zero]

/-- The first parameter has no default, or not one that is needed. -/
theorem lastDefaults_cons_of_none (h : standIn? (p :: ps) missing 0 = none) (i : Nat) :
    lastDefaults missing i (p :: ps) = lastDefaults missing (i + 1) ps := by
  rw [lastDefaults, lastDefaults, defaultsFrom]
  cases hp : p.default? with
  | none => rw [defaultCount_cons_of_none hp]
  | some d =>
    have hle : missing ≤ defaultCount ps := by
      rcases standIn?_zero_eq_none_iff.mp h with hle | hnone
      · exact hle
      · rw [hp] at hnone
        cases hnone
    have hskip : defaultCount ps + 1 - missing = defaultCount ps - missing + 1 := by omega
    rw [defaultCount_cons_of_some hp, hskip, List.drop_succ_cons]

theorem length_lastDefaults (missing i : Nat) (params : List Pattern) :
    (lastDefaults missing i params).length = min missing (defaultCount params) := by
  have hlen : (defaultsFrom i params).length = defaultCount params := length_defaultsFrom i params
  rw [lastDefaults, List.length_drop, hlen]
  omega

/-- With the defaults that stand in, there are `n` arguments more, and as many values as
parameters. -/
def Suffices (params : List Pattern) (missing n : Nat) : Prop :=
  n + min missing (defaultCount params) = params.length

/-- If something stands in for the first parameter, the arguments are for the others. -/
theorem Suffices.of_some {n : Nat} {d : Value} (hs : standIn? (p :: ps) missing 0 = some d)
    (h : Suffices (p :: ps) missing n) : Suffices ps missing n := by
  obtain ⟨hlt, hp⟩ := standIn?_zero_eq_some_iff.mp hs
  rw [Suffices, defaultCount_cons_of_some hp, List.length_cons] at h
  rw [Suffices]
  omega

/-- If nothing stands in for the first parameter, there is an argument for it. -/
theorem Suffices.of_none {args : List Value} (hs : standIn? (p :: ps) missing 0 = none)
    (h : Suffices (p :: ps) missing args.length) :
    ∃ a rest, args = a :: rest ∧ Suffices ps missing rest.length := by
  have hle := defaultCount_le ps
  have hsame : min missing (defaultCount (p :: ps)) = min missing (defaultCount ps) := by
    rw [← length_lastDefaults missing 0, lastDefaults_cons_of_none hs, length_lastDefaults]
  rw [Suffices, hsame, List.length_cons] at h
  obtain ⟨a, rest, rfl⟩ := List.exists_cons_of_length_pos (l := args) (by omega)
  rw [List.length_cons] at h
  exact ⟨a, rest, rfl, by rw [Suffices]; omega⟩

/-! ### One by one, and from the left -/

theorem insertIdx_length (front back : List Value) (v : Value) :
    (front ++ back).insertIdx front.length v = front ++ v :: back := by
  induction front with
  | nil => rfl
  | cons a front ih => simp [ih]

theorem insertDefault_length (front back : List Value) (d : Value) :
    insertDefault (front ++ back) (front.length, d) = front ++ d :: back := by
  have hmin : min front.length (front ++ back).length = front.length := by
    rw [List.length_append]
    omega
  rw [insertDefault, hmin, insertIdx_length]

/-- **Defaults put in one by one** come to rest where dealing out from the left puts them.  The
parameters before those of `params` have their values in `front` already. -/
theorem foldl_insertDefault (front : List Value) {args : List Value}
    (h : Suffices params missing args.length) :
    (lastDefaults missing front.length params).foldl insertDefault (front ++ args) =
      front ++ spread missing params args := by
  induction params generalizing front args with
  | nil => simp [lastDefaults, defaultsFrom, spread]
  | cons p ps ih =>
    cases hs : standIn? (p :: ps) missing 0 with
    | some d =>
      have hrest := ih (front ++ [d]) (h.of_some hs)
      rw [lastDefaults_cons_of_some hs, List.foldl_cons, insertDefault_length,
        spread_cons_of_some hs]
      simpa using hrest
    | none =>
      obtain ⟨a, rest, rfl, hrest⟩ := h.of_none hs
      have hrest := ih (front ++ [a]) hrest
      rw [lastDefaults_cons_of_none hs, spread_cons_of_none hs]
      simpa using hrest

/-- **No position lies beyond the end of the list**, when its turn comes: the arguments and the
defaults before it reach at least so far. -/
theorem position_le {i : Nat} {args : List Value} (h : Suffices params missing args.length)
    {before after : List (Nat × Value)} {entry : Nat × Value}
    (hsplit : lastDefaults missing i params = before ++ entry :: after) :
    entry.1 ≤ i + args.length + before.length := by
  induction params generalizing i args before with
  | nil => simp [lastDefaults, defaultsFrom] at hsplit
  | cons p ps ih =>
    cases hs : standIn? (p :: ps) missing 0 with
    | some d =>
      rw [lastDefaults_cons_of_some hs] at hsplit
      cases before with
      | nil =>
        obtain ⟨rfl, _⟩ := List.cons.inj hsplit
        show i ≤ _
        omega
      | cons first before =>
        have hle := ih (h.of_some hs) (List.cons.inj hsplit).2
        rw [List.length_cons]
        omega
    | none =>
      obtain ⟨a, rest, rfl, hrest⟩ := h.of_none hs
      rw [lastDefaults_cons_of_none hs] at hsplit
      have hle := ih hrest hsplit
      rw [List.length_cons]
      omega

theorem isFilling_spread {args : List Value} (h : Suffices params missing args.length) :
    IsFilling params missing args (spread missing params args) := by
  induction params generalizing args with
  | nil =>
    have hnil : args = [] := List.length_eq_zero_iff.mp (Nat.eq_zero_of_add_eq_zero_right h)
    subst hnil
    exact ⟨rfl, fun i d hd => by simp [standIn?] at hd, rfl⟩
  | cons p ps ih =>
    cases hs : standIn? (p :: ps) missing 0 with
    | some d =>
      obtain ⟨hlength, hdefault, hgiven⟩ := ih (h.of_some hs)
      rw [spread_cons_of_some hs]
      refine ⟨by simp [hlength], fun i e he => ?_, by simp [given_cons, hs, hgiven]⟩
      cases i with
      | zero =>
        rw [hs] at he
        exact he
      | succ i => exact hdefault i e he
    | none =>
      obtain ⟨a, rest, rfl, hrest⟩ := h.of_none hs
      obtain ⟨hlength, hdefault, hgiven⟩ := ih hrest
      rw [spread_cons_of_none hs]
      refine ⟨by simp [hlength], fun i e he => ?_, by simp [given_cons, hs, hgiven]⟩
      cases i with
      | zero =>
        rw [hs] at he
        cases he
      | succ i => exact hdefault i e he

/-! ### Defaults of the last parameters only -/

/-- If every parameter has a default, those that are missing are the last ones. -/
theorem spread_of_optional {optional : List Pattern} {args : List Value}
    (h : Suffices optional missing args.length)
    (hoptional : ∀ p ∈ optional, p.default? ≠ none) :
    spread missing optional args =
      args ++ (optional.filterMap Pattern.default?).drop (optional.length - missing) := by
  induction optional generalizing args with
  | nil =>
    have hnil : args = [] := List.length_eq_zero_iff.mp (Nat.eq_zero_of_add_eq_zero_right h)
    subst hnil
    simp [spread]
  | cons p ps ih =>
    have hps : ∀ q ∈ ps, q.default? ≠ none := fun q hq => hoptional q (List.mem_cons_of_mem p hq)
    have hcount : defaultCount ps = ps.length :=
      List.countP_eq_length.mpr fun q hq => Option.isSome_iff_ne_none.mpr (hps q hq)
    cases hs : standIn? (p :: ps) missing 0 with
    | some d =>
      -- all of them are missing, so there is no argument at all
      obtain ⟨hlt, hp⟩ := standIn?_zero_eq_some_iff.mp hs
      have hrest := h.of_some hs
      have hnil : args = [] := by
        rw [Suffices] at hrest
        exact List.length_eq_zero_iff.mp (by omega)
      have hall : (p :: ps).length - missing = 0 := by
        rw [List.length_cons]
        omega
      have hrestAll : ps.length - missing = 0 := by omega
      rw [spread_cons_of_some hs, ih hrest hps, List.filterMap_cons_some hp, hall, hrestAll, hnil]
      rfl
    | none =>
      obtain ⟨a, rest, rfl, hrest⟩ := h.of_none hs
      obtain ⟨d, hp⟩ := Option.ne_none_iff_exists'.mp (hoptional p List.mem_cons_self)
      have hle : missing ≤ ps.length := by
        rcases standIn?_zero_eq_none_iff.mp hs with hle | hnone
        · exact hcount ▸ hle
        · rw [hp] at hnone
          cases hnone
      have hskip : (p :: ps).length - missing = ps.length - missing + 1 := by
        rw [List.length_cons]
        omega
      rw [spread_cons_of_none hs, ih hrest hps, List.filterMap_cons_some hp, hskip,
        List.drop_succ_cons]
      rfl

/-- If all defaults are those of the last parameters, they follow the arguments. -/
theorem spread_append {required optional : List Pattern} {args : List Value}
    (h : Suffices (required ++ optional) missing args.length)
    (hrequired : ∀ p ∈ required, p.default? = none)
    (hoptional : ∀ p ∈ optional, p.default? ≠ none) :
    spread missing (required ++ optional) args =
      args ++ (optional.filterMap Pattern.default?).drop (optional.length - missing) := by
  induction required generalizing args with
  | nil => exact spread_of_optional h hoptional
  | cons p ps ih =>
    have hs : standIn? (p :: (ps ++ optional)) missing 0 = none :=
      standIn?_zero_eq_none_iff.mpr (.inr (hrequired p List.mem_cons_self))
    obtain ⟨a, rest, rfl, hrest⟩ := Suffices.of_none hs h
    have hps : ∀ q ∈ ps, q.default? = none := fun q hq => hrequired q (List.mem_cons_of_mem p hq)
    show spread missing (p :: (ps ++ optional)) (a :: rest) = _
    rw [spread_cons_of_none hs, ih hrest hps]
    rfl

/-! ### What a head makes of its arguments -/

variable {h : ClauseHead} {args : List Value}

theorem fill_of_arity_le (hle : h.arity ≤ args.length) : h.fill args = args := by
  rw [fill, if_pos (.inl hle)]

theorem fill_of_not_takes (hd : h.defaults.length ≤ h.arity) (hno : ¬ h.Takes args.length) :
    h.fill args = args := by
  rw [Takes, minArity] at hno
  rw [fill, if_pos (by omega)]

/-- Filled in once, nothing is missing any more, or it cannot be helped. -/
theorem fill_fill (hd : h.defaults.length ≤ h.arity) (args : List Value) :
    h.fill (h.fill args) = h.fill args := by
  by_cases ht : h.Takes args.length
  · exact fill_of_arity_le (Nat.le_of_eq (length_fill hd ht).symm)
  · rw [fill_of_not_takes hd ht, fill_of_not_takes hd ht]

/-- The defaults that the head puts in are the last ones of its parameters. -/
theorem drop_defaults (hc : compile params = .ok h) (missing : Nat) :
    h.defaults.drop (h.defaults.length - missing) = lastDefaults missing 0 params := by
  obtain ⟨ms, hms, rfl⟩ := compile_eq_ok_iff.mp hc
  have hlen : (defaultsFrom 0 params).length = defaultCount params := length_defaultsFrom 0 params
  rw [lastDefaults, hlen]

theorem arity_of_compile (hc : compile params = .ok h) : h.arity = params.length := by
  obtain ⟨ms, hms, rfl⟩ := compile_eq_ok_iff.mp hc
  exact length_compileParams hms

theorem suffices_of_takes (hc : compile params = .ok h) (ht : h.Takes args.length) :
    Suffices params (h.arity - args.length) args.length := by
  obtain ⟨hfewest, hmax⟩ := (takes_iff_of_compile hc _).mp ht
  have hmin : params.length - defaultCount params ≤ args.length := hfewest
  have hle := defaultCount_le params
  rw [Suffices, arity_of_compile hc]
  omega

theorem fill_eq_spread (hc : compile params = .ok h) (ht : h.Takes args.length) :
    h.fill args = spread (h.arity - args.length) params args := by
  have hs := suffices_of_takes hc ht
  rw [← List.nil_append (spread _ _ _), ← foldl_insertDefault [] hs, List.nil_append,
    List.length_nil, ← drop_defaults hc]
  by_cases hle : h.arity ≤ args.length
  · have hnone : h.arity - args.length = 0 := by omega
    rw [fill_of_arity_le hle, hnone, Nat.sub_zero, List.drop_length]
    rfl
  · have hmin := ht.1
    rw [minArity] at hmin
    rw [fill, if_neg (by omega)]

/-- **Missing arguments are filled in** by a head that was made of parameters.  If it takes their
number, the last defaults are at the positions of their parameters and the arguments around them in
order, each default was put in where there was a place for it, and defaults of the last parameters
only follow the arguments.  Any other arguments stay as they are.  A clause selects the same for
arguments and for what its head makes of them. -/
theorem fill_isFilling (hc : compile params = .ok h) (args : List Value) :
    (fewest params ≤ args.length → args.length ≤ params.length →
      IsFilling params (params.length - args.length) args (h.fill args) ∧
      (∀ before entry after,
        h.defaults.drop (h.defaults.length - (h.arity - args.length)) =
          before ++ entry :: after →
        entry.1 ≤ (before.foldl insertDefault args).length) ∧
      ∀ required optional, params = required ++ optional →
        (∀ p ∈ required, p.default? = none) → (∀ p ∈ optional, p.default? ≠ none) →
        h.fill args = args ++ (optional.filterMap Pattern.default?).drop
          (optional.length - (params.length - args.length))) ∧
    (¬ (fewest params ≤ args.length ∧ args.length ≤ params.length) → h.fill args = args) ∧
    ∀ {m : Type → Type} [Monad m] {R : Type} (guard : Guard m) (body : List Value → m R)
      (o : Occasion), (Clause.mk h guard body).select? o args =
        (Clause.mk h guard body).select? o (h.fill args) := by
  have hd := length_defaults_le hc
  refine ⟨fun hfewest hmax => ?_, fun hno => ?_, fun guard body o => ?_⟩
  · have ht : h.Takes args.length := (takes_iff_of_compile hc _).mpr ⟨hfewest, hmax⟩
    have hs := suffices_of_takes hc ht
    rw [fill_eq_spread hc ht, drop_defaults hc]
    rw [arity_of_compile hc] at hs ⊢
    refine ⟨isFilling_spread hs, fun before entry after hsplit => ?_, ?_⟩
    · have hle := position_le hs hsplit
      rw [length_foldl_insertDefault]
      omega
    · rintro required optional rfl hrequired hoptional
      exact spread_append hs hrequired hoptional
  · exact fill_of_not_takes hd fun ht => hno ((takes_iff_of_compile hc _).mp ht)
  · rw [Clause.select?, Clause.select?, fill_fill hd]

/-- Parameters of which every other one has a default. -/
def interleaved : List Pattern :=
  [.var ⟨some "a", some (.int 1)⟩, .var ⟨some "x", none⟩, .var ⟨some "b", some (.int 2)⟩,
    .var ⟨some "y", none⟩, .var ⟨some "c", some (.int 3)⟩]

/-- Two of three defaults are needed, and more than all of them; and a default that follows the
arguments. -/
theorem fill_isFilling_interleaved :
    ∃ h, compile interleaved = .ok h ∧
      h.fill [.int 7, .int 8, .int 9] = [.int 7, .int 8, .int 2, .int 9, .int 3] ∧
      IsFilling interleaved 2 [.int 7, .int 8, .int 9] (h.fill [.int 7, .int 8, .int 9]) ∧
      h.fill [.int 7] = [.int 7] ∧
      ∃ h', compile [.wildcard, .var ⟨some "b", some (.int 2)⟩] = .ok h' ∧
        h'.fill [.int 7] = [.int 7] ++ [.int 2] := by
  have hc : compile interleaved = .ok ⟨_, defaultsFrom 0 interleaved⟩ := rfl
  refine ⟨_, hc, rfl,
    ((fill_isFilling hc [.int 7, .int 8, .int 9]).1 (by decide) (by decide)).1,
    (fill_isFilling hc [.int 7]).2.1 (by decide), _, rfl, ?_⟩
  exact ((fill_isFilling rfl [.int 7]).1 (by decide) (by decide)).2.2 [.wildcard]
    [.var ⟨some "b", some (.int 2)⟩] rfl (by simp [Pattern.default?]) (by simp [Pattern.default?])

end StructuralMatching.ClauseHead
