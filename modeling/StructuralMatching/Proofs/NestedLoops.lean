/-
A comprehension as loops inside each other.

The combinations of a comprehension are all made before the first of them is tested.  Loops inside
each other test each combination when they come to it, and match the items of the inner sources
again and again.  Both run the same guards and bodies in the same order.

* `forEach`, `loops` — the loops, the first generator outermost;
* `Timely` — the inner loops find the items as they were when they were drawn;
* `drawnAt`, `timely_drawnAt` — by the clock of the comprehension they always do;
* `Generator.under` — the combinations that begin with given values, as the loops come to them;
* `combineFrom_eq` — these are the combinations of the comprehension;
* `comprehension_eq_loops` — the comprehension runs as the loops do, or reports the first pattern
  that does not compile.

Design notes: combinations are extended at their ends, generator by generator, so the comprehension
flattens from the left what the loops flatten from the right.  That the order is the same is the
associativity of `flatMap`.
-/
import StructuralMatching.Comprehension
import StructuralMatching.Proofs.Matching.Likeness

namespace StructuralMatching

variable {m : Type → Type} [Monad m] {R : Type}

/-! ### The loops -/

/-- Runs a step for each of the items in turn, the first being the `j`-th, and joins what the steps
return. -/
def forEach (step : Nat → Value → m (List R)) (j : Nat) : List Value → m (List R)
  | [] => return []
  | v :: vs => do
    let results ← step j v
    return results ++ (← forEach step (j + 1) vs)

/-- What is done with one combination: the guard runs once, and if it accepts, so does the body. -/
def useOnce (guard : Guard m) (body : List Value → m R) (combination : List Value) :
    m (List R) := do
  if ← guard combination then return [← body combination] else return []

/-- What a value binds under the pattern of a generator.  If the pattern does not compile, there is
nothing that matches. -/
def Generator.bind? (g : Generator) (o : Occasion) (v : Value) : Option (List Value) :=
  match g.pattern.compile with
  | .error _ => none
  | .ok c => c.bind? o v

/-- **The loops**, the first generator outermost.  Items that do not match are passed over.  The
values bound so far are `front`, and the `clock` tells on which occasion an item is matched, from
the positions of the items that the loops are at. -/
def loops (guard : Guard m) (body : List Value → m R) (clock : List Nat → Occasion)
    (front : List Value) : List Generator → m (List R)
  | [] => useOnce guard body front
  | g :: gs =>
    forEach (fun j v =>
      match g.bind? (clock [j]) v with
      | none => return []
      | some bindings => loops guard body (fun path => clock (j :: path)) (front ++ bindings) gs)
      0 g.source

/-- Every item is matched on the occasion on which it is drawn, unless it is always the same.  The
first generator is the `i`-th step. -/
def Timely (o : Occasion) (i : Nat) (clock : List Nat → Occasion) (gs : List Generator) : Prop :=
  ∀ path j g v, gs[path.length]? = some g → g.source[j]? = some v →
    clock (path ++ [j]) = (o.step (i + path.length)).step j ∨ v.Steady

theorem Timely.head {o : Occasion} {i : Nat} {clock : List Nat → Occasion} {g : Generator}
    {gs : List Generator} (h : Timely o i clock (g :: gs)) {j : Nat} {v : Value}
    (hv : g.source[j]? = some v) : clock [j] = (o.step i).step j ∨ v.Steady :=
  h [] j g v rfl hv

theorem Timely.tail {o : Occasion} {i : Nat} {clock : List Nat → Occasion} {g : Generator}
    {gs : List Generator} (h : Timely o i clock (g :: gs)) (j : Nat) :
    Timely o (i + 1) (fun path => clock (j :: path)) gs := by
  intro path k g' v hg hv
  have hstep := h (j :: path) k g' v hg hv
  rwa [List.length_cons, ← Nat.add_assoc, Nat.add_right_comm] at hstep

/-- The clock by which the items are drawn: it tells how deep the loop is, and at which of its
items. -/
def drawnAt (o : Occasion) (path : List Nat) : Occasion :=
  (o.step (path.length - 1)).step (path.getLast?.getD 0)

/-- By this clock the loops find the items as they were drawn, whatever the items are. -/
theorem timely_drawnAt (o : Occasion) (gs : List Generator) : Timely o 0 (drawnAt o) gs := by
  intro path j g v _ _
  refine .inl ?_
  rw [drawnAt, List.length_append, List.length_singleton, Nat.add_sub_cancel, List.getLast?_concat,
    Option.getD_some, Nat.zero_add]

/-! ### Combinations in the order of the loops -/

namespace Generator

/-- What is bound does not change as long as the fields of instances do not. -/
theorem bind?_eq_of_steady {g : Generator} (hg : g.pattern.Ordered) {o o' : Occasion} {v : Value}
    (h : o = o' ∨ v.Steady) : g.bind? o v = g.bind? o' v := by
  rw [bind?, bind?]
  cases hc : g.pattern.compile with
  | error e => rfl
  | ok c =>
    refine Option.ext fun bindings => ?_
    rw [Pattern.bind?_eq_some_iff_sites hg hc, Pattern.bind?_eq_some_iff_sites hg hc,
      Pattern.sites?_eq_of_steady g.pattern h]

/-- What a generator draws, item by item. -/
def drawn (g : Generator) (o : Occasion) (j : Nat) : List Value → List (List Value)
  | [] => []
  | v :: vs => (g.bind? (o.step j) v).toList ++ drawn g o (j + 1) vs

theorem drawFrom_eq_drawn {g : Generator} {c : Matcher} (hc : g.pattern.compile = .ok c)
    (o : Occasion) (j : Nat) (vs : List Value) : drawFrom c o j vs = g.drawn o j vs := by
  induction vs generalizing j with
  | nil => rfl
  | cons v vs ih =>
    have hbind : g.bind? (o.step j) v = c.bind? (o.step j) v := by rw [bind?, hc]
    rw [drawFrom, drawn, hbind, ih]
    cases c.bind? (o.step j) v with
    | none => rfl
    | some bindings => rfl

/-- The combinations that begin with the values `front`, the items of the first generator varying
most slowly. -/
def under (o : Occasion) (i : Nat) (front : List Value) : List Generator → List (List Value)
  | [] => [front]
  | g :: gs =>
    (g.drawn (o.step i) 0 g.source).flatMap fun bindings => under o (i + 1) (front ++ bindings) gs

/-- **The combinations of a comprehension come in the order of the loops.** -/
theorem combineFrom_eq {gs : List Generator} (hgs : ∀ g ∈ gs, ∃ c, g.pattern.compile = .ok c)
    (o : Occasion) (i : Nat) (combinations : List (List Value)) :
    combineFrom o i combinations gs =
      .ok (combinations.flatMap fun front => under o i front gs) := by
  induction gs generalizing i combinations with
  | nil =>
    show Except.ok combinations = Except.ok (combinations.flatMap fun front => [front])
    rw [List.flatMap_singleton']
  | cons g gs ih =>
    rw [List.forall_mem_cons] at hgs
    obtain ⟨⟨c, hc⟩, hgs⟩ := hgs
    rw [combineFrom, hc]
    refine (ih hgs (i + 1) _).trans (congrArg Except.ok ?_)
    -- On the left what was extended is extended again; on the right each front is, all the way.
    rw [drawFrom_eq_drawn hc, extend, List.flatMap_assoc]
    refine congrArg (combinations.flatMap ·) (funext fun front => ?_)
    rw [List.flatMap_map, under]

/-- The first pattern that does not compile ends it all. -/
theorem combineFrom_append_error {before after : List Generator} {g : Generator} {e : PatternError}
    (hbefore : ∀ b ∈ before, ∃ c, b.pattern.compile = .ok c) (he : g.pattern.compile = .error e)
    (o : Occasion) (i : Nat) (combinations : List (List Value)) :
    combineFrom o i combinations (before ++ g :: after) = .error e := by
  induction before generalizing i combinations with
  | nil => rw [List.nil_append, combineFrom, he]
  | cons b before ih =>
    rw [List.forall_mem_cons] at hbefore
    obtain ⟨⟨c, hc⟩, hbefore⟩ := hbefore
    rw [List.cons_append, combineFrom, hc]
    exact ih hbefore (i + 1) _

end Generator

/-! ### Running through the combinations -/

section Lawful

variable [LawfulMonad m] (guard : Guard m) (body : List Value → m R)

theorem collect_cons (combination : List Value) (rest : List (List Value)) :
    collect guard body (combination :: rest) = (do
      let results ← useOnce guard body combination
      return results ++ (← collect guard body rest)) := by
  rw [collect, useOnce, bind_assoc]
  congr 1
  funext accepted
  cases accepted with
  | true =>
    show (body combination >>= _) = ((body combination >>= _) >>= _)
    rw [bind_assoc]
    congr 1
    funext r
    rw [pure_bind]
    rfl
  | false =>
    show collect guard body rest = ((pure [] : m (List R)) >>= _)
    rw [pure_bind]
    exact (bind_pure _).symm

/-- One list of combinations after another. -/
theorem collect_append (xs ys : List (List Value)) :
    collect guard body (xs ++ ys) = (do
      let results ← collect guard body xs
      return results ++ (← collect guard body ys)) := by
  induction xs with
  | nil =>
    rw [collect, pure_bind]
    exact (bind_pure _).symm
  | cons x xs ih =>
    rw [List.cons_append, collect_cons, collect_cons, ih]
    simp only [bind_assoc, pure_bind, List.append_assoc]

theorem collect_singleton (combination : List Value) :
    collect guard body [combination] = useOnce guard body combination := by
  rw [collect_cons, collect]
  simp only [pure_bind, List.append_nil, bind_pure]

/-- The combinations that the items of a source lead to, as a loop over the items. -/
theorem collect_flatMap_drawn (g : Generator) (o : Occasion)
    (next : List Value → List (List Value)) (j : Nat) (vs : List Value) :
    collect guard body ((g.drawn o j vs).flatMap next) =
      forEach (fun j v =>
        match g.bind? (o.step j) v with
        | none => return []
        | some bindings => collect guard body (next bindings)) j vs := by
  induction vs generalizing j with
  | nil => rfl
  | cons v vs ih =>
    -- An item leads to as many combinations as `next` makes of it, or to none if it does not match.
    rw [Generator.drawn, forEach, List.flatMap_append, collect_append, ih]
    cases g.bind? (o.step j) v with
    | none => rfl
    | some bindings =>
      rw [Option.toList_some, List.flatMap_singleton]

omit [LawfulMonad m] in
/-- Loops are alike if their steps are alike for the items of the source. -/
theorem forEach_congr {step step' : Nat → Value → m (List R)} (j : Nat) {vs : List Value}
    (h : ∀ k v, vs[k]? = some v → step (j + k) v = step' (j + k) v) :
    forEach step j vs = forEach step' j vs := by
  induction vs generalizing j with
  | nil => rfl
  | cons v vs ih =>
    have hrest : ∀ k w, vs[k]? = some w → step (j + 1 + k) w = step' (j + 1 + k) w := by
      intro k w hw
      rw [Nat.add_assoc, Nat.add_comm 1 k]
      exact h (k + 1) w hw
    have hfirst : step j v = step' j v := h 0 v rfl
    rw [forEach, forEach, hfirst, ih (j + 1) hrest]

/-- **The combinations in their order are what the loops come to.**  The induction is on the
generators, so that each loop has the combinations below it as its step. -/
theorem collect_under {gs : List Generator} (hgs : ∀ g ∈ gs, g.pattern.Ordered) {o : Occasion}
    {i : Nat} {clock : List Nat → Occasion} (hclock : Timely o i clock gs) (front : List Value) :
    collect guard body (Generator.under o i front gs) = loops guard body clock front gs := by
  induction gs generalizing i clock front with
  | nil => exact collect_singleton guard body front
  | cons g gs ih =>
    rw [List.forall_mem_cons] at hgs
    rw [Generator.under, collect_flatMap_drawn, loops]
    refine forEach_congr 0 fun j v hv => ?_
    rw [Nat.zero_add, ← Generator.bind?_eq_of_steady hgs.1 (hclock.head hv)]
    cases g.bind? (clock [j]) v with
    | none => rfl
    | some bindings => exact ih hgs.2 (hclock.tail j) (front ++ bindings)

end Lawful

/-- **A comprehension is loops inside each other**, as a computation of any monad: the same guards
and bodies run in the same order, and the results are the same, by the clock of the comprehension
and by any other that is right.  If there is a pattern that does not compile, the first one is
reported, and nothing runs. -/
theorem comprehension_eq_loops [LawfulMonad m] {gs : List Generator}
    (hgs : ∀ g ∈ gs, g.pattern.Ordered) (o : Occasion) (guard : Guard m)
    (body : List Value → m R) :
    ((∀ g ∈ gs, ∃ c, g.pattern.compile = .ok c) →
      comprehension gs o guard body = (do return .ok (← loops guard body (drawnAt o) [] gs)) ∧
      ∀ clock, Timely o 0 clock gs →
        comprehension gs o guard body = (do return .ok (← loops guard body clock [] gs))) ∧
    ∀ before g after e, gs = before ++ g :: after →
      (∀ b ∈ before, ∃ c, b.pattern.compile = .ok c) → g.pattern.compile = .error e →
      comprehension gs o guard body = return .error e := by
  constructor
  · intro hcompiles
    have hcombine : Generator.combine o gs = .ok (Generator.under o 0 [] gs) := by
      rw [Generator.combine, Generator.combineFrom_eq hcompiles, List.flatMap_singleton]
    have hloops : ∀ clock, Timely o 0 clock gs →
        comprehension gs o guard body = (do return .ok (← loops guard body clock [] gs)) := by
      intro clock hclock
      rw [comprehension, hcombine, ← collect_under guard body hgs hclock]
    exact ⟨hloops _ (timely_drawnAt o gs), hloops⟩
  · rintro before g after e rfl hbefore he
    rw [comprehension, Generator.combine, Generator.combineFrom_append_error hbefore he]

/-- A guard that keeps a record of what it is asked, and an instance with a field that comes and
goes, by a clock that stands still; and a pattern that does not compile, after a source without
items. -/
theorem comprehension_eq_loops_recorded :
    LawfulMonad (StateM (List (List Value))) ∧ ∃ (i : Instance Value) (g g' bad : Generator)
      (guard : Guard (StateM (List (List Value)))),
      i = ⟨.given 0, ⟨"Point"⟩, "Point", fun o =>
        if o.path = [1, 1] then [("k", .int 2)] else []⟩ ∧
      g = ⟨.var ⟨some "x", none⟩, [.int 1, .int 2]⟩ ∧
      g' = ⟨.map [("k", .var ⟨some "x", none⟩)], [.int 3, .object i]⟩ ∧
      bad = ⟨.literal (.object i), []⟩ ∧
      guard = (fun combination => do
        modify (· ++ [combination])
        return combination != [.int 2, .int 2]) ∧
      (∀ h ∈ [g, g'], h.pattern.Ordered) ∧ (∀ h ∈ [g, g'], ∃ c, h.pattern.compile = .ok c) ∧
      Timely .start 0 (fun _ => (Occasion.start.step 1).step 1) [g, g'] ∧
      comprehension [g, g'] .start guard pure =
        (do return .ok (← loops guard pure (drawnAt .start) [] [g, g'])) ∧
      comprehension [g, g'] .start guard pure =
        (do return .ok (← loops guard pure (fun _ => (Occasion.start.step 1).step 1) [] [g, g'])) ∧
      (comprehension [g, g'] .start guard pure).run [] =
        (.ok [[.int 1, .int 2]], [[.int 1, .int 2], [.int 2, .int 2]]) ∧
      comprehension [⟨.wildcard, []⟩, bad, g] .start guard pure =
        return .error (.unsupportedLiteral "Point") := by
  have hint : ∀ n, (Value.int n).Steady := by
    intro n j hj
    cases hj
  refine ⟨inferInstance, _, _, _, _, _, rfl, rfl, rfl, rfl, rfl, ?ordered, ?compiles, ?timely,
    ((comprehension_eq_loops ?ordered _ _ _).1 ?compiles).1,
    ((comprehension_eq_loops ?ordered _ _ _).1 ?compiles).2 _ ?timely, rfl,
    (comprehension_eq_loops ?unready _ _ _).2 [⟨.wildcard, []⟩] _ _ _ rfl ?before rfl⟩
  case ordered =>
    rw [List.forall_mem_cons, List.forall_mem_singleton]
    exact ⟨trivial, List.pairwise_singleton _ _, trivial, trivial⟩
  case compiles =>
    rw [List.forall_mem_cons, List.forall_mem_singleton]
    exact ⟨⟨_, rfl⟩, ⟨_, rfl⟩⟩
  case timely =>
    intro path j h v hh hv
    match path, j with
    | [], 0 => cases hh; cases hv; exact .inr (hint 1)
    | [], 1 => cases hh; cases hv; exact .inr (hint 2)
    | [_], 0 => cases hh; cases hv; exact .inr (hint 3)
    | [_], 1 => exact .inl rfl
    | [], _ + 2 => cases hh; cases hv
    | [_], _ + 2 => cases hh; cases hv
    | _ :: _ :: _, _ => cases hh
  case unready =>
    rw [List.forall_mem_cons, List.forall_mem_cons, List.forall_mem_singleton]
    exact ⟨trivial, trivial, trivial⟩
  case before =>
    rw [List.forall_mem_singleton]
    exact ⟨_, rfl⟩

end StructuralMatching
