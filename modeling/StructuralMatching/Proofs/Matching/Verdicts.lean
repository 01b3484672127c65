/-
One verdict, said in several ways.

A value can be matched under a guard in many ways: by a pattern or by its matcher, with an error,
nothing or given values in case there is no match, with a guard that is waited for, or by a
comprehension with a single item.  All of them come to the same.

* `Guard.keep` — what a guard leaves of bindings; it runs once if there are any, else not at all;
* `Pattern.Refused` — all ways of matching report that the pattern does not compile, and no guard
  runs;
* `Pattern.Judged` — all ways of matching say what the guard keeps of what the value binds;
* `Pattern.AsksOnce` — in all of them the guard is asked at most once, about these bindings;
* `Pattern.verdicts_agree` — a pattern is refused if it does not compile, and values are judged if
  it does.

Design notes: guards may do anything, so the ways are compared as computations of any monad.  How
often a guard is asked is read off the reports of a guard that makes one each time; to be aborted or
to be late is one of its effects.
-/
import StructuralMatching.Proofs.NestedLoops
import StructuralMatching.Proofs.Polling

namespace StructuralMatching

section Judgement

variable {m : Type → Type} [Monad m]

/-- What a guard leaves of bindings.  It runs if there are bindings, and then once. -/
def Guard.keep (guard : Guard m) : Option (List Value) → m (Option (List Value))
  | none => return none
  | some bindings => do
    let accepted ← guard bindings
    return if accepted then some bindings else none

/-- Bindings, or the error that the value does not match. -/
def orMismatch (o : Occasion) (v : Value) : Option (List Value) → Except MatchError (List Value)
  | some bindings => .ok bindings
  | none => .error (.noMatch o [v])

namespace Pattern

/-- All ways of matching report an error of the pattern, whatever the value is. -/
structure Refused (p : Pattern) (o : Occasion) (v : Value) (guard : Guard m) (e : PatternError) :
    Prop where
  matchOrError : p.matchOrError o guard v = return .error (.malformed e)
  match? : p.match? o guard v = return .error e
  matchOrDefault : ∀ default, p.matchOrDefault o guard v default = return .error e
  deferred : ∀ {ε} (late : Guard (Deferred ε)) default,
    p.matchOrDefaultDeferred o late v default = .done (.error e)
  comprehension : ∀ {R} (body : List Value → m R) vs,
    comprehension [⟨p, vs⟩] o guard body = return .error e

/-- All ways of matching, by a pattern and by its matcher, say what the guard keeps of what the
value binds.  A comprehension reads the value on an occasion of its own, which does not matter if
the value is always the same. -/
structure Judged (p : Pattern) (c : Matcher) (o : Occasion) (v : Value) (guard : Guard m) :
    Prop where
  bindWhen? : c.bindWhen? o guard v = guard.keep (c.bind? o v)
  bindOrError : c.bindOrError o guard v = (do return orMismatch o v (← guard.keep (c.bind? o v)))
  bindOrDefault : ∀ default,
    c.bindOrDefault o guard v default = (do return (← guard.keep (c.bind? o v)).getD default)
  match? : p.match? o guard v = (do return .ok (← guard.keep (c.bind? o v)))
  matchOrError : p.matchOrError o guard v =
    (do return (orMismatch o v (← guard.keep (c.bind? o v))).mapError .mismatch)
  matchOrDefault : ∀ default,
    p.matchOrDefault o guard v default =
      (do return .ok ((← guard.keep (c.bind? o v)).getD default))
  deferred : ∀ {ε} (late : Guard (Deferred ε)) default,
    p.matchOrDefaultDeferred o late v default =
      (do return .ok ((← late.keep (c.bind? o v)).getD default))
  comprehension : ∀ {R} (body : List Value → m R) o',
    (o'.step 0).step 0 = o ∨ p.Ordered ∧ v.Steady →
      comprehension [⟨p, [v]⟩] o' guard body = (do
        match ← guard.keep (c.bind? o v) with
        | none => return .ok []
        | some bindings => return .ok [← body bindings])

/-- In all ways of matching the guard is asked once about what the value binds, and is not asked if
the value does not match.  What a guard is asked shows in the reports. -/
structure AsksOnce (p : Pattern) (c : Matcher) (o : Occasion) (v : Value)
    (guard : Guard (Deferred (List Value))) : Prop where
  bindWhen? : (c.bindWhen? o guard v).events = (c.bind? o v).toList
  bindOrError : (c.bindOrError o guard v).events = (c.bind? o v).toList
  bindOrDefault : ∀ default, (c.bindOrDefault o guard v default).events = (c.bind? o v).toList
  match? : (p.match? o guard v).events = (c.bind? o v).toList
  matchOrError : (p.matchOrError o guard v).events = (c.bind? o v).toList
  matchOrDefault : ∀ default, (p.matchOrDefault o guard v default).events = (c.bind? o v).toList
  deferred : ∀ default,
    (p.matchOrDefaultDeferred o guard v default).events = (c.bind? o v).toList
  comprehension : ∀ {R} (body : List Value → Deferred (List Value) R),
    (∀ bindings, (body bindings).events = []) →
      (comprehension [⟨p, [v]⟩] o guard body).events =
        (c.bind? ((o.step 0).step 0) v).toList

end Pattern

end Judgement

/-! ### Patterns that do not compile -/

namespace Pattern

variable {m : Type → Type} [Monad m]

theorem refused_of_compile [LawfulMonad m] {p : Pattern} {e : PatternError}
    (h : p.compile = .error e) (o : Occasion) (v : Value) (guard : Guard m) :
    p.Refused o v guard e where
  matchOrError := by rw [Pattern.matchOrError, h]
  match? := by
    rw [Pattern.match?, Pattern.matchOrError, h]
    exact pure_bind _ _
  matchOrDefault default := by rw [Pattern.matchOrDefault, withMatcher, h]
  deferred late default := by rw [matchOrDefaultDeferred, h]
  comprehension body vs := by
    rw [StructuralMatching.comprehension, Generator.combine, Generator.combineFrom, h]

end Pattern

/-! ### Patterns that compile -/

section Lawful

variable {m : Type → Type} [Monad m] [LawfulMonad m] (guard : Guard m)

/-- A guard that decides whether there is one result or none. -/
theorem useOnce_eq_keep {R : Type} (body : List Value → m R) (bindings : List Value) :
    useOnce guard body bindings = (do
      match ← guard.keep (some bindings) with
      | none => return []
      | some bindings => return [← body bindings]) := by
  rw [useOnce, Guard.keep, bind_assoc]
  congr 1
  funext accepted
  rw [pure_bind]
  cases accepted <;> rfl

/-- A single item leads to one combination if it matches, and else to none. -/
theorem comprehension_singleton {p : Pattern} {c : Matcher} (h : p.compile = .ok c) (v : Value)
    (o : Occasion) {R : Type} (body : List Value → m R) :
    comprehension [⟨p, [v]⟩] o guard body = (do
      match ← guard.keep (c.bind? ((o.step 0).step 0) v) with
      | none => return .ok []
      | some bindings => return .ok [← body bindings]) := by
  rw [comprehension, Generator.combine, Generator.combineFrom, h]
  show (do return Except.ok (← collect guard body
    (Generator.extend [[]] (Generator.drawFrom c (o.step 0) 0 [v])))) = _
  rw [Generator.drawFrom]
  cases c.bind? ((o.step 0).step 0) v with
  | none =>
    show ((pure [] : m (List R)) >>= _) = ((pure none : m (Option (List Value))) >>= _)
    rw [pure_bind, pure_bind]
  | some bindings =>
    show (collect guard body [bindings] >>= _) = _
    rw [collect_singleton, useOnce_eq_keep, bind_assoc]
    congr 1
    funext kept
    cases kept with
    | none => exact pure_bind _ _
    | some bindings => exact (bind_assoc _ _ _).trans (congrArg _ (funext fun r => pure_bind _ _))

namespace Matcher

omit [LawfulMonad m] in
theorem bindWhen?_eq_keep (c : Matcher) (o : Occasion) (v : Value) :
    c.bindWhen? o guard v = guard.keep (c.bind? o v) := by
  rw [bindWhen?]
  cases c.bind? o v with
  | none => rfl
  | some bindings =>
    refine congrArg (guard bindings >>= ·) (funext fun accepted => ?_)
    cases accepted <;> rfl

omit [LawfulMonad m] in
theorem bindOrError_eq_keep (c : Matcher) (o : Occasion) (v : Value) :
    c.bindOrError o guard v = (do return orMismatch o v (← guard.keep (c.bind? o v))) := by
  rw [bindOrError, bindWhen?_eq_keep]
  refine congrArg (guard.keep (c.bind? o v) >>= ·) (funext fun kept => ?_)
  cases kept <;> rfl

omit [LawfulMonad m] in
theorem bindOrDefault_eq_keep (c : Matcher) (o : Occasion) (v : Value) (default : List Value) :
    c.bindOrDefault o guard v default =
      (do return (← guard.keep (c.bind? o v)).getD default) := by
  rw [bindOrDefault, bindWhen?_eq_keep]

end Matcher

namespace Pattern

variable {p : Pattern} {c : Matcher} (h : p.compile = .ok c) (o : Occasion) (v : Value)

include h

theorem matchOrError_eq_keep :
    p.matchOrError o guard v =
      (do return (orMismatch o v (← guard.keep (c.bind? o v))).mapError .mismatch) := by
  rw [matchOrError, h]
  show (c.bindOrError o guard v >>= _) = _
  rw [Matcher.bindOrError_eq_keep, bind_assoc]
  refine congrArg (guard.keep (c.bind? o v) >>= ·) (funext fun kept => ?_)
  rw [pure_bind]
  cases kept <;> rfl

/-- Errors of the pattern and of the match are sorted out again. -/
theorem match?_eq_keep :
    p.match? o guard v = (do return .ok (← guard.keep (c.bind? o v))) := by
  rw [match?, matchOrError_eq_keep guard h, bind_assoc]
  refine congrArg (guard.keep (c.bind? o v) >>= ·) (funext fun kept => ?_)
  rw [pure_bind]
  cases kept <;> rfl

theorem matchOrDefault_eq_keep (default : List Value) :
    p.matchOrDefault o guard v default =
      (do return .ok ((← guard.keep (c.bind? o v)).getD default)) := by
  rw [matchOrDefault, withMatcher, h]
  show (c.bindOrDefault o guard v default >>= _) = _
  rw [Matcher.bindOrDefault_eq_keep, bind_assoc]
  refine congrArg (guard.keep (c.bind? o v) >>= ·) (funext fun kept => ?_)
  rw [pure_bind]

omit [LawfulMonad m] [Monad m] in
theorem matchOrDefaultDeferred_eq_keep {ε : Type} (late : Guard (Deferred ε))
    (default : List Value) :
    p.matchOrDefaultDeferred o late v default =
      (do return .ok ((← late.keep (c.bind? o v)).getD default)) := by
  rw [matchOrDefaultDeferred, h]
  show (match c.bind? o v with
    | none => Deferred.done (Except.ok default)
    | some bindings => do if ← late bindings then return .ok bindings else return .ok default) = _
  cases c.bind? o v with
  | none => rfl
  | some bindings =>
    rw [Guard.keep, bind_assoc]
    refine congrArg (late bindings >>= ·) (funext fun accepted => ?_)
    cases accepted <;> rfl

theorem judged_of_compile : p.Judged c o v guard where
  bindWhen? := c.bindWhen?_eq_keep guard o v
  bindOrError := c.bindOrError_eq_keep guard o v
  bindOrDefault := c.bindOrDefault_eq_keep guard o v
  match? := match?_eq_keep guard h o v
  matchOrError := matchOrError_eq_keep guard h o v
  matchOrDefault := matchOrDefault_eq_keep guard h o v
  deferred := matchOrDefaultDeferred_eq_keep h o v
  comprehension body o' ho := by
    have hbind : c.bind? ((o'.step 0).step 0) v = c.bind? o v := by
      rcases ho with ho | ⟨hp, hv⟩
      · rw [ho]
      · have hsame : (Generator.mk p []).bind? ((o'.step 0).step 0) v =
            (Generator.mk p []).bind? o v := Generator.bind?_eq_of_steady hp (.inr hv)
        rwa [Generator.bind?, Generator.bind?, h] at hsame
    rw [comprehension_singleton guard h, hbind]

end Pattern

end Lawful

/-! ### How often the guard is asked -/

section Asked

variable {guard : Guard (Deferred (List Value))}
  (hguard : ∀ bindings, (guard bindings).events = [bindings])

include hguard

theorem Guard.events_keep (found : Option (List Value)) :
    (guard.keep found).events = found.toList := by
  cases found with
  | none => rfl
  | some bindings => exact (Deferred.events_bind_done _ _).trans (hguard bindings)

/-- Nothing more is reported by going on without another question. -/
theorem Guard.events_keep_bind {α : Type} (found : Option (List Value))
    {next : Option (List Value) → Deferred (List Value) α}
    (hnext : ∀ kept, (next kept).events = []) :
    (guard.keep found >>= next).events = found.toList := by
  refine (Deferred.events_bind _ _).trans ?_
  rw [Guard.events_keep hguard, Deferred.eventsAfter]
  cases (guard.keep found).result with
  | ok kept =>
    show found.toList ++ (next kept).events = _
    rw [hnext, List.append_nil]
  | error reason => exact List.append_nil _

theorem Pattern.asksOnce_of_compile {p : Pattern} {c : Matcher} (h : p.compile = .ok c)
    (o : Occasion) (v : Value) : p.AsksOnce c o v guard where
  bindWhen? := by
    rw [c.bindWhen?_eq_keep]
    exact Guard.events_keep hguard _
  bindOrError := by
    rw [c.bindOrError_eq_keep]
    exact Guard.events_keep_bind hguard _ fun kept => rfl
  bindOrDefault default := by
    rw [c.bindOrDefault_eq_keep]
    exact Guard.events_keep_bind hguard _ fun kept => rfl
  match? := by
    rw [match?_eq_keep guard h]
    exact Guard.events_keep_bind hguard _ fun kept => rfl
  matchOrError := by
    rw [matchOrError_eq_keep guard h]
    exact Guard.events_keep_bind hguard _ fun kept => rfl
  matchOrDefault default := by
    rw [matchOrDefault_eq_keep guard h]
    exact Guard.events_keep_bind hguard _ fun kept => rfl
  deferred default := by
    rw [matchOrDefaultDeferred_eq_keep h]
    exact Guard.events_keep_bind hguard _ fun kept => rfl
  comprehension body hbody := by
    rw [comprehension_singleton guard h]
    refine Guard.events_keep_bind hguard _ fun kept => ?_
    cases kept with
    | none => rfl
    | some bindings => exact (Deferred.events_bind_done _ _).trans (hbody bindings)

end Asked

/-! ### All together -/

namespace Pattern

/-- A guard that is late decides what it would decide at once. -/
theorem result_matchOrDefaultDeferred {ε : Type} (p : Pattern) (o : Occasion)
    (late : Guard (Deferred ε)) (v : Value) (default : List Value) :
    (p.matchOrDefaultDeferred o late v default).result =
      p.matchOrDefault o (fun bindings => (late bindings).result) v default := by
  cases h : p.compile with
  | error e => rw [matchOrDefaultDeferred, matchOrDefault, withMatcher, h]; rfl
  | ok c =>
    rw [matchOrDefaultDeferred_eq_keep h, matchOrDefault_eq_keep _ h]
    cases c.bind? o v with
    | none => rfl
    | some bindings =>
      refine (Deferred.result_bind _ _).trans ?_
      show ((late bindings).bind _).result >>= _ = _
      rw [Deferred.result_bind, Guard.keep, bind_assoc, bind_assoc]
      rfl

/-- An error of the pattern is reported exactly if the pattern does not compile. -/
theorem matchOrError_eq_malformed_iff (p : Pattern) (o : Occasion) (answer : Guard (Except Panic))
    (v : Value) (e : PatternError) :
    p.matchOrError o answer v = .ok (.error (.malformed e)) ↔ p.compile = .error e := by
  cases h : p.compile with
  | error e' =>
    rw [matchOrError, h]
    simp [pure, Except.pure]
  | ok c =>
    refine iff_of_false (fun heq => ?_) nofun
    rw [matchOrError_eq_keep answer h] at heq
    obtain ⟨kept, _, hkept⟩ := bind_eq_ok_iff.mp heq
    cases kept <;> cases hkept

/-- **All ways of matching agree.**  If a pattern does not compile, all of them report the same
error, for every value, and the guard does not run.  If it compiles, all of them say what the guard
keeps of what the value binds, and the guard is asked once about that, or not at all if the value
does not match.  A guard that is waited for decides what it would decide at once, and an error of
the pattern is never taken for a mismatch, nor a mismatch for it. -/
theorem verdicts_agree {m : Type → Type} [Monad m] [LawfulMonad m] (p : Pattern) (o : Occasion)
    (v : Value) :
    (∀ e, p.compile = .error e → ∀ guard : Guard m, p.Refused o v guard e) ∧
    (∀ c, p.compile = .ok c → (∀ guard : Guard m, p.Judged c o v guard) ∧
      ∀ guard, (∀ bindings, (guard bindings).events = [bindings]) → p.AsksOnce c o v guard) ∧
    (∀ {ε} (late : Guard (Deferred ε)) default,
      (p.matchOrDefaultDeferred o late v default).result =
        p.matchOrDefault o (fun bindings => (late bindings).result) v default) ∧
    ∀ (answer : Guard (Except Panic)) e,
      p.matchOrError o answer v = .ok (.error (.malformed e)) ↔ p.compile = .error e := by
  refine ⟨fun e h guard => refused_of_compile h o v guard, fun c h => ⟨fun guard => ?_, ?_⟩,
    fun late default => result_matchOrDefaultDeferred p o late v default,
    fun answer e => matchOrError_eq_malformed_iff p o answer v e⟩
  · exact judged_of_compile guard h o v
  · exact fun guard hguard => asksOnce_of_compile hguard h o v

/-- A guard that is aborted, one that is late and rejects, and a pattern that does not compile. -/
theorem verdicts_agree_rejected :
    LawfulMonad (Except Panic) ∧ ∃ (p bad : Pattern) (c : Matcher) (i : Instance Value)
      (late : Guard (Deferred (List Value))),
      p = .capture (.startsWith "a") ∧ p.compile = .ok c ∧
      late = (fun bindings => .event bindings (.after 2 (.done (bindings.length == 3)))) ∧
      c.bind? .start (.string "ab") = some [.string "b", .string "ab"] ∧
      p.matchOrError (m := Except Panic) .start (fun _ => .error ⟨"late"⟩) (.string "ab") =
        .error ⟨"late"⟩ ∧
      p.matchOrDefaultDeferred .start late (.string "ab") [.null] =
        .event [.string "b", .string "ab"] (.pending (.pending (.done (.ok [.null])))) ∧
      (p.match? .start late (.string "ab")).events = [[.string "b", .string "ab"]] ∧
      (p.match? .start late (.string "b")).events = [] ∧
      bad = .literal (.object i) ∧ bad.compile = .error (.unsupportedLiteral "Point") ∧
      bad.match? (m := Except Panic) .start (fun _ => .error ⟨"late"⟩) (.string "ab") =
        .ok (.error (.unsupportedLiteral "Point")) := by
  have hreport : ∀ bindings : List Value, Deferred.events (.event bindings (.after 2
      (.done (bindings.length == 3)))) = [bindings] := fun bindings => rfl
  have hagree := verdicts_agree (m := Except Panic) (.capture (.startsWith "a")) .start
  have hbad := verdicts_agree (m := Except Panic)
    (.literal (.object ⟨.given 0, ⟨"Point"⟩, "Point", fun _ => []⟩)) .start (.string "ab")
  refine ⟨inferInstance, _, _, _, ⟨.given 0, ⟨"Point"⟩, "Point", fun _ => []⟩, _, rfl, rfl, rfl,
    rfl, ?_, ?_, ?_, ?_, rfl, rfl, ?_⟩
  · exact (((hagree (.string "ab")).2.1 _ rfl).1 _).matchOrError
  · exact (((hagree (.string "ab")).2.1 _ rfl).1 fun _ => .ok true).deferred _ _
  · exact (((hagree (.string "ab")).2.1 _ rfl).2 _ hreport).match?
  · exact (((hagree (.string "b")).2.1 _ rfl).2 _ hreport).match?
  · exact (hbad.1 _ rfl _).match?

end Pattern

end StructuralMatching
