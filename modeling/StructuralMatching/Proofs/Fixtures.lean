/-
What recorded cases say, and what a run of them finds.

A fixture passes exactly if what it states is so.  For a pattern it states that the description is
of no use, or else what every value binds; for a function it states that all clauses make sense,
and which of them a call selects, what is bound, or which error there is.

* `PatternCase.Holds`, `DispatchCase.Holds` — what one case states;
* `ClauseHead.LeadsTo` — what a call leads to, told by the heads of the clauses;
* `PatternFixture.caseText`, `DispatchFixture.CaseSays` — what is said about a case that fails;
* `PatternFixture.IsJudged`, `DispatchFixture.IsJudged` — when a fixture passes, and what is said
  if it does not;
* `fixtures_are_judged` — all fixtures are judged in this way.

Design notes: a run stops at the first case that fails, so the cases after it do not show.  That
each of them is judged for itself is said by comparing the run with those of fixtures that hold one
case each.
-/
import StructuralMatching.Fixture.Dispatch
import StructuralMatching.Fixture.Pattern
import StructuralMatching.Proofs.Dispatch.Scan
import StructuralMatching.Proofs.Value.Equality

namespace StructuralMatching

/-- The bindings are strictly equal to the values of the trees, one by one. -/
def Agrees (bindings : List Value) (trees : List Json) : Prop :=
  List.Forall₂ (fun v j => (v == Value.ofJson j) = true) bindings trees

theorem agrees_iff {bindings : List Value} {trees : List Json} :
    Agrees bindings trees ↔ (bindings == trees.map Value.ofJson) = true := by
  rw [← Value.beqList_eq, Value.beqList_iff, List.forall₂_map_right_iff]
  rfl

/-- What is said about two values that were expected to be equal. -/
def unequalText (message found expected : String) : String :=
  s!"assertion `left == right` failed: {message}\n  left: {found}\n right: {expected}"

/-! ### Recorded cases for a pattern -/

/-- The value that a case matches: the bytes, if they are given. -/
def PatternCase.given (c : PatternCase) : Value :=
  (c.bytes.map Value.bytes).getD (Value.ofJson c.value)

/-- What a case states of a matcher: the bytes, if they are given, or else the value binds what is
expected; it does not match if nothing is. -/
def PatternCase.Holds (c : PatternCase) (m : Matcher) : Prop :=
  match c.expect, m.bind? .start c.given with
  | none, none => True
  | some trees, some bindings => Agrees bindings trees
  | _, _ => False

namespace PatternFixture

/-- The fixture that holds one case alone. -/
def alone (f : PatternFixture) (c : PatternCase) : PatternFixture := { f with cases := [c] }

/-- All that is said about the first thing that is not as expected. -/
def verdict? (complaint : Json → String) (f : PatternFixture) : Option String :=
  (f.judge complaint).map f.text

/-- The description leads to this matcher. -/
def LeadsTo (f : PatternFixture) (m : Matcher) : Prop :=
  ∃ p, Pattern.ofJson? f.pattern = some p ∧ p.compile = .ok m

/-- The description is of no use: it describes no pattern, or one that does not compile. -/
def IsUseless (f : PatternFixture) : Prop :=
  Pattern.ofJson? f.pattern = none ∨
    ∃ p e, Pattern.ofJson? f.pattern = some p ∧ p.compile = .error e

/-- What is said about a case that fails: which case of which fixture it is, and what its value
binds and was expected to bind. -/
def caseText (f : PatternFixture) (m : Matcher) (c : PatternCase) : String :=
  let expected := Value.explicitBindings (c.expect.map (·.map Value.ofJson))
  let actual := Value.explicitBindings (m.bind? .start c.given)
  unequalText s!"Fixture '{f.name}' case '{c.name}': expected {expected}, got {actual}"
    actual expected

/-- When a fixture passes, and what is said if it does not. -/
structure IsJudged (complaint : Json → String) (f : PatternFixture) : Prop where
  passes_iff : f.verdict? complaint = none ↔
    f.expectsError = true ∧ f.IsUseless ∨
      f.expectsError = false ∧ ∃ m, f.LeadsTo m ∧ ∀ c ∈ f.cases, c.Holds m
  says_compiled : ∀ m, f.LeadsTo m → f.expectsError = true →
    f.verdict? complaint = some s!"Fixture '{f.name}' expected error but pattern compiled"
  says_unreadable : Pattern.ofJson? f.pattern = none → f.expectsError = false →
    f.verdict? complaint =
      some s!"Fixture '{f.name}' pattern parse failed: {complaint f.pattern}"
  says_malformed : ∀ p e, Pattern.ofJson? f.pattern = some p → p.compile = .error e →
    f.expectsError = false → f.verdict? complaint =
      some s!"Fixture '{f.name}' pattern compile failed: {e.message}"
  /-- A run that gets to its cases reports the first one that fails. -/
  says_case : ∀ m, f.LeadsTo m → f.expectsError = false → ∀ before c after,
    f.cases = before ++ c :: after → (∀ b ∈ before, b.Holds m) → ¬c.Holds m →
      f.verdict? complaint = some (f.caseText m c)
  /-- Each case is judged for itself, whatever the other cases are. -/
  alone_iff : ∀ m, f.LeadsTo m → f.expectsError = false → ∀ c,
    ((f.alone c).verdict? complaint = none ↔ c.Holds m) ∧
      (¬c.Holds m → (f.alone c).verdict? complaint = some (f.caseText m c))
  /-- What is said is what the first case that fails by itself has to say. -/
  reports_iff : ∀ m, f.LeadsTo m → f.expectsError = false → ∀ said,
    f.verdict? complaint = some said ↔ ∃ before c after, f.cases = before ++ c :: after ∧
      (f.alone c).verdict? complaint = some said ∧
        ∀ b ∈ before, (f.alone b).verdict? complaint = none

variable {complaint : Json → String} {f : PatternFixture} {m : Matcher}

theorem matcher_of_unreadable (h : Pattern.ofJson? f.pattern = none) :
    f.matcher complaint = .error (.unreadable (complaint f.pattern)) := by
  rw [matcher, h]

theorem matcher_of_malformed {p : Pattern} {e : PatternError}
    (hp : Pattern.ofJson? f.pattern = some p) (he : p.compile = .error e) :
    f.matcher complaint = .error (.malformed e) := by
  rw [matcher, hp]
  simp only [he]

theorem matcher_of_leadsTo (h : f.LeadsTo m) : f.matcher complaint = .ok m := by
  obtain ⟨p, hp, hm⟩ := h
  rw [matcher, hp]
  simp only [hm]

theorem leadsTo_or_isUseless (f : PatternFixture) : (∃ m, f.LeadsTo m) ∨ f.IsUseless := by
  cases hp : Pattern.ofJson? f.pattern with
  | none => exact .inr (.inl hp)
  | some p =>
    cases hm : p.compile with
    | error e => exact .inr (.inr ⟨p, e, hp, hm⟩)
    | ok m => exact .inl ⟨m, p, hp, hm⟩

theorem exists_matcher_eq_error (h : f.IsUseless) : ∃ e, f.matcher complaint = .error e := by
  rcases h with h | ⟨p, e, hp, he⟩
  · exact ⟨_, matcher_of_unreadable h⟩
  · exact ⟨_, matcher_of_malformed hp he⟩

theorem IsUseless.not_leadsTo (h : f.IsUseless) : ¬f.LeadsTo m := by
  intro hm
  obtain ⟨e, he⟩ : ∃ e, f.matcher (fun _ => "") = .error e := exists_matcher_eq_error h
  rw [matcher_of_leadsTo hm] at he
  cases he

theorem LeadsTo.unique {m' : Matcher} (h : f.LeadsTo m) (h' : f.LeadsTo m') : m = m' := by
  have hm : f.matcher (fun _ => "") = .ok m := matcher_of_leadsTo h
  rw [matcher_of_leadsTo h'] at hm
  cases hm
  rfl

/-! #### Cases -/

theorem candidate_eq_given (c : PatternCase) : c.candidate = c.given := by
  rw [PatternCase.candidate, PatternCase.given]
  cases c.bytes <;> rfl

theorem caseFailure?_eq_none_iff (c : PatternCase) : caseFailure? m c = none ↔ c.Holds m := by
  rw [caseFailure?, PatternCase.Holds, PatternCase.expected, candidate_eq_given]
  cases m.bind? .start c.given with
  | none => cases c.expect <;> simp
  | some bindings =>
    cases c.expect with
    | none => simp
    | some trees =>
      show (if (some bindings == some (trees.map Value.ofJson)) = true then _ else _) = _ ↔
        Agrees bindings trees
      rw [agrees_iff, Option.some_beq_some]
      by_cases heq : (bindings == trees.map Value.ofJson) = true
      · exact iff_of_true (if_pos heq) heq
      · exact iff_of_false (by rw [if_neg heq]; exact nofun) heq

/-- A case that fails says what it binds. -/
theorem map_text_caseFailure? (f : PatternFixture) {c : PatternCase} (h : ¬c.Holds m) :
    (caseFailure? m c).map f.text = some (f.caseText m c) := by
  rw [← caseFailure?_eq_none_iff, caseFailure?] at h
  rw [caseFailure?]
  by_cases heq : (m.bind? .start c.candidate == c.expected) = true
  · exact absurd (if_pos heq) h
  · rw [if_neg heq, candidate_eq_given]
    rfl

/-- Without a fault in the description, the cases decide. -/
theorem judge_of_leadsTo (hm : f.LeadsTo m) (he : f.expectsError = false) :
    f.judge complaint = f.cases.findSome? (caseFailure? m) := by
  rw [judge, matcher_of_leadsTo hm, he]
  rfl

theorem verdict?_alone (hm : f.LeadsTo m) (he : f.expectsError = false) (c : PatternCase) :
    (f.alone c).verdict? complaint = (caseFailure? m c).map f.text := by
  have hfailure : (f.alone c).judge complaint = [c].findSome? (caseFailure? m) :=
    judge_of_leadsTo (f := f.alone c) hm he
  rw [verdict?, hfailure, List.findSome?_singleton]
  rfl

theorem verdict?_eq_findSome? (hm : f.LeadsTo m) (he : f.expectsError = false) :
    f.verdict? complaint = f.cases.findSome? fun c => (f.alone c).verdict? complaint := by
  rw [verdict?, judge_of_leadsTo hm he, List.map_findSome?]
  congr 1
  funext c
  exact (verdict?_alone hm he c).symm

theorem verdict?_alone_eq_none_iff (hm : f.LeadsTo m) (he : f.expectsError = false)
    (c : PatternCase) : (f.alone c).verdict? complaint = none ↔ c.Holds m := by
  rw [verdict?_alone hm he, Option.map_eq_none_iff, caseFailure?_eq_none_iff]

theorem verdict?_alone_of_not_holds (hm : f.LeadsTo m) (he : f.expectsError = false)
    {c : PatternCase} (h : ¬c.Holds m) :
    (f.alone c).verdict? complaint = some (f.caseText m c) := by
  rw [verdict?_alone hm he, map_text_caseFailure? f h]

/-- A run that gets to its cases finds the first one that fails by itself. -/
theorem verdict?_eq_some_iff (hm : f.LeadsTo m) (he : f.expectsError = false) (said : String) :
    f.verdict? complaint = some said ↔ ∃ before c after, f.cases = before ++ c :: after ∧
      (f.alone c).verdict? complaint = some said ∧
        ∀ b ∈ before, (f.alone b).verdict? complaint = none := by
  rw [verdict?_eq_findSome? hm he, List.findSome?_eq_some_iff]

theorem passes_iff : f.verdict? complaint = none ↔
    f.expectsError = true ∧ f.IsUseless ∨
      f.expectsError = false ∧ ∃ m, f.LeadsTo m ∧ ∀ c ∈ f.cases, c.Holds m := by
  rcases leadsTo_or_isUseless f with ⟨m, hm⟩ | huseless
  · have huse : ¬f.IsUseless := fun h => h.not_leadsTo hm
    have honly : ∀ m', f.LeadsTo m' ↔ m' = m :=
      fun m' => ⟨fun h => h.unique hm, fun h => h ▸ hm⟩
    rw [verdict?, Option.map_eq_none_iff, judge, matcher_of_leadsTo hm]
    cases f.expectsError <;>
      simp [huse, honly, List.findSome?_eq_none_iff, caseFailure?_eq_none_iff]
  · have hno : ¬∃ m, f.LeadsTo m ∧ ∀ c ∈ f.cases, c.Holds m :=
      fun ⟨m, hm, _⟩ => huseless.not_leadsTo hm
    obtain ⟨e, he⟩ : ∃ e, f.matcher complaint = .error e := exists_matcher_eq_error huseless
    rw [verdict?, Option.map_eq_none_iff, judge, he]
    cases f.expectsError <;> simp [huseless, hno]

theorem isJudged (complaint : Json → String) (f : PatternFixture) : f.IsJudged complaint where
  passes_iff := passes_iff
  says_compiled m hm he := by
    rw [verdict?, judge, matcher_of_leadsTo hm, he]
    rfl
  says_unreadable h he := by
    rw [verdict?, judge, matcher_of_unreadable h, he]
    rfl
  says_malformed p e hp hm he := by
    rw [verdict?, judge, matcher_of_malformed hp hm, he]
    rfl
  says_case m hm he before c after hsplit hbefore hc := by
    refine (verdict?_eq_some_iff hm he _).mpr ⟨before, c, after, hsplit, ?_, fun b hb => ?_⟩
    · exact verdict?_alone_of_not_holds hm he hc
    · exact (verdict?_alone_eq_none_iff hm he b).mpr (hbefore b hb)
  alone_iff m hm he c :=
    ⟨verdict?_alone_eq_none_iff hm he c, verdict?_alone_of_not_holds hm he⟩
  reports_iff m hm he said := verdict?_eq_some_iff hm he said

end PatternFixture

/-! ### What a call leads to -/

namespace ClauseHead

/-- The head, which has the number `i` among those of a function, takes the arguments, and they
bind values. -/
def Accepts (h : ClauseHead) (i : Nat) (args bindings : List Value) : Prop :=
  h.Takes args.length ∧ h.bind? (Occasion.start.step i) (h.fill args) = some bindings

/-- The arguments do not match the head, if it takes so many at all. -/
def Refuses (h : ClauseHead) (i : Nat) (args : List Value) : Prop :=
  h.Takes args.length → h.bind? (Occasion.start.step i) (h.fill args) = none

/-- What a call leads to that selects a clause by its head alone: the number of the clause and what
is bound, or an error. -/
inductive LeadsTo (hs : List ClauseHead) (args : List Value) :
    Except MatchErrorKind (Nat × List Value) → Prop where
  /-- The first clause that accepts the arguments is selected. -/
  | selected {i : Nat} {h : ClauseHead} {bindings : List Value} (at_index : hs[i]? = some h)
      (accepts : h.Accepts i args bindings)
      (first : ∀ j < i, ∀ g, hs[j]? = some g → g.Refuses j args) :
      LeadsTo hs args (.ok (i, bindings))
  | noMatch (taken : ∃ h ∈ hs, h.Takes args.length)
      (refused : ∀ (j : Nat) g, hs[j]? = some g → g.Refuses j args) :
      LeadsTo hs args (.error .noMatch)
  | arityNotFound (untaken : ∀ h ∈ hs, ¬h.Takes args.length) :
      LeadsTo hs args (.error .arityNotFound)

theorem Accepts.not_refuses {h : ClauseHead} {i : Nat} {args bindings : List Value}
    (ha : h.Accepts i args bindings) : ¬h.Refuses i args := by
  intro hr
  have hnone := hr ha.1
  rw [ha.2] at hnone
  cases hnone

/-- A call leads to one thing only. -/
theorem LeadsTo.unique {hs : List ClauseHead} {args : List Value}
    {r r' : Except MatchErrorKind (Nat × List Value)} (hr : LeadsTo hs args r)
    (hr' : LeadsTo hs args r') : r = r' := by
  cases hr with
  | @selected i h bindings hi ha hfirst =>
    cases hr' with
    | @selected i' h' bindings' hi' ha' hfirst' =>
      have hle : ¬i' < i := fun hlt => ha'.not_refuses (hfirst i' hlt h' hi')
      have hge : ¬i < i' := fun hlt => ha.not_refuses (hfirst' i hlt h hi)
      obtain rfl : i = i' := by omega
      rw [hi] at hi'
      cases hi'
      have hsame := ha.2.symm.trans ha'.2
      cases hsame
      rfl
    | noMatch _ hrefused => exact absurd (hrefused i h hi) ha.not_refuses
    | arityNotFound hno => exact absurd ha.1 (hno h (List.mem_of_getElem? hi))
  | noMatch htaken hrefused =>
    cases hr' with
    | selected hi' ha' _ => exact absurd (hrefused _ _ hi') ha'.not_refuses
    | noMatch => rfl
    | arityNotFound hno =>
      obtain ⟨h, hmem, htakes⟩ := htaken
      exact absurd htakes (hno h hmem)
  | arityNotFound hno =>
    cases hr' with
    | selected hi' ha' _ => exact absurd ha'.1 (hno _ (List.mem_of_getElem? hi'))
    | noMatch htaken _ =>
      obtain ⟨h, hmem, htakes⟩ := htaken
      exact absurd htakes (hno h hmem)
    | arityNotFound => rfl

end ClauseHead

namespace Dispatcher

/-- Clauses without guards are tried one by one until the arguments match one of them. -/
theorem callAmong_unguarded {R : Type} (o : Occasion) (args : List Value)
    (entries : List (Nat × Clause Id R)) (hguard : ∀ e ∈ entries, e.2.guard = Guard.always) :
    (∃ before i c after bindings, entries = before ++ (i, c) :: after ∧
      (∀ e ∈ before, e.2.head.bind? (o.step e.1) (e.2.head.fill args) = none) ∧
      c.head.bind? (o.step i) (c.head.fill args) = some bindings ∧
      callAmong o args entries = pure (.ok (c.body bindings))) ∨
    (∀ e ∈ entries, e.2.head.bind? (o.step e.1) (e.2.head.fill args) = none) ∧
      callAmong o args entries = pure (.error (.noMatch o args)) := by
  induction entries with
  | nil => exact .inr ⟨by simp, rfl⟩
  | cons e rest ih =>
    obtain ⟨i, c⟩ := e
    rw [callAmong_cons]
    cases hb : c.head.bind? (o.step i) (c.head.fill args) with
    | some bindings =>
      refine .inl ⟨[], i, c, rest, bindings, rfl, by simp, hb, ?_⟩
      show (c.guard bindings >>= _) = _
      rw [show c.guard = Guard.always from hguard _ List.mem_cons_self]
      rfl
    | none =>
      rcases ih fun e he => hguard e (List.mem_cons_of_mem _ he) with
        ⟨before, j, d, after, bindings, rfl, hbefore, hd, hcall⟩ | ⟨hall, hcall⟩
      · refine .inl ⟨(i, c) :: before, j, d, after, bindings, rfl, ?_, hd, hcall⟩
        intro e he
        rcases List.mem_cons.mp he with rfl | he
        · exact hb
        · exact hbefore e he
      · refine .inr ⟨?_, hcall⟩
        intro e he
        rcases List.mem_cons.mp he with rfl | he
        · exact hb
        · exact hall e he

end Dispatcher

/-! ### Recorded cases for a function -/

/-- What a case states of the heads of clauses: the error of the call, or else the number of the
clause that is selected and what is bound, as far as they are given. -/
def DispatchCase.Holds (c : DispatchCase) (hs : List ClauseHead) : Prop :=
  match c.error with
  | some kind => ClauseHead.LeadsTo hs (c.args.map Value.ofJson) (.error kind)
  | none => ∃ i bindings, ClauseHead.LeadsTo hs (c.args.map Value.ofJson) (.ok (i, bindings)) ∧
      (∀ n, c.clause = some n → i = n) ∧ ∀ trees, c.bindings = some trees → Agrees bindings trees

/-- What is said about a call that selects no clause. -/
def DispatchCase.unmatchedText (c : DispatchCase) : String :=
  "No match for: " ++ Value.displayAll .start (c.args.map Value.ofJson)

namespace DispatchFixture

/-- The fixture that holds one case alone. -/
def alone (f : DispatchFixture) (c : DispatchCase) : DispatchFixture := { f with cases := [c] }

/-- All that is said about the first thing that is not as expected. -/
def verdict? (f : DispatchFixture) : Option String := f.failure?.map f.text

/-- All clauses compile, and these are their heads. -/
def Compiles (f : DispatchFixture) (hs : List ClauseHead) : Prop :=
  List.Forall₂ (fun params h => ClauseHead.compile params = .ok h) f.clauses hs

/-- The clauses with these heads, each of which answers its number and what is bound; the first of
them has number `i`. -/
def reportingFrom (i : Nat) : List ClauseHead → List (Clause Id (Nat × List Value))
  | [] => []
  | h :: hs => ⟨h, .always, fun bindings => (i, bindings)⟩ :: reportingFrom (i + 1) hs

/-- How a kind of errors is written. -/
def kindText : MatchErrorKind → String
  | .noMatch => "NoMatch"
  | .arityNotFound => "ArityNotFound"

/-- What is said about a case that fails: which case of which fixture it is, what the call led to
and what it was expected to lead to.  The clause that is selected is looked at before what is
bound. -/
inductive CaseSays (f : DispatchFixture) (hs : List ClauseHead) (c : DispatchCase) : String → Prop
  where
  | wrongError {expected kind : MatchErrorKind} (error : c.error = some expected)
      (call : ClauseHead.LeadsTo hs (c.args.map Value.ofJson) (.error kind))
      (ne : kind ≠ expected) :
      CaseSays f hs c <| unequalText
        s!"Fixture '{f.name}' case '{c.name}': wrong error kind ({c.unmatchedText})"
        (kindText kind) (kindText expected)
  | unexpectedMatch {expected : MatchErrorKind} {i : Nat} {bindings : List Value}
      (error : c.error = some expected)
      (call : ClauseHead.LeadsTo hs (c.args.map Value.ofJson) (.ok (i, bindings))) :
      CaseSays f hs c
        s!"Fixture '{f.name}' case '{c.name}': expected {kindText expected}, but clause {i} matched"
  | unexpectedError {kind : MatchErrorKind} (error : c.error = none)
      (call : ClauseHead.LeadsTo hs (c.args.map Value.ofJson) (.error kind)) :
      CaseSays f hs c
        s!"Fixture '{f.name}' case '{c.name}': expected a match, got {c.unmatchedText}"
  | wrongClause {i n : Nat} {bindings : List Value} (error : c.error = none)
      (call : ClauseHead.LeadsTo hs (c.args.map Value.ofJson) (.ok (i, bindings)))
      (clause : c.clause = some n) (ne : i ≠ n) :
      CaseSays f hs c <| unequalText
        s!"Fixture '{f.name}' case '{c.name}': wrong clause selected" (toString i) (toString n)
  | wrongBindings {i : Nat} {bindings : List Value} {trees : List Json} (error : c.error = none)
      (call : ClauseHead.LeadsTo hs (c.args.map Value.ofJson) (.ok (i, bindings)))
      (clause : ∀ n, c.clause = some n → i = n) (expected : c.bindings = some trees)
      (ne : ¬Agrees bindings trees) :
      CaseSays f hs c <| unequalText
        s!"Fixture '{f.name}' case '{c.name}': wrong bindings"
        (Value.explicitList bindings) (Value.explicitList (trees.map Value.ofJson))

/-- When a fixture passes, and what is said if it does not. -/
structure IsJudged (f : DispatchFixture) : Prop where
  passes_iff : f.verdict? = none ↔ ∃ hs, f.Compiles hs ∧ ∀ c ∈ f.cases, c.Holds hs
  says_malformed : ∀ before params after e, f.clauses = before ++ params :: after →
    (∀ q ∈ before, ∃ h, ClauseHead.compile q = .ok h) → ClauseHead.compile params = .error e →
      f.verdict? =
        some s!"Fixture '{f.name}' clause {before.length} failed to compile: {e.message}"
  /-- A call of the function leads to what the heads of its clauses say. -/
  call_leadsTo : ∀ d, f.reporter = .ok d → ∀ hs, f.Compiles hs → ∀ args,
    ∃ r, ClauseHead.LeadsTo hs args r ∧ Id.run (d.call .start args) =
      r.mapError fun kind => ⟨kind, Value.displayAll .start args⟩
  /-- A run that gets to its cases reports the first one that fails. -/
  says_case : ∀ hs, f.Compiles hs → ∀ before c after, f.cases = before ++ c :: after →
    (∀ b ∈ before, b.Holds hs) → ∀ said, f.CaseSays hs c said → f.verdict? = some said
  /-- Each case is judged for itself, whatever the other cases are. -/
  alone_iff : ∀ hs, f.Compiles hs → ∀ c, ((f.alone c).verdict? = none ↔ c.Holds hs) ∧
    ∀ said, (f.alone c).verdict? = some said ↔ f.CaseSays hs c said
  /-- What is said is what the first case that fails by itself has to say. -/
  reports_iff : ∀ hs, f.Compiles hs → ∀ said,
    f.verdict? = some said ↔ ∃ before c after, f.cases = before ++ c :: after ∧
      (f.alone c).verdict? = some said ∧ ∀ b ∈ before, (f.alone b).verdict? = none

variable {f : DispatchFixture} {hs : List ClauseHead}

theorem clausesFrom_of_compiles {i : Nat} {params : List (List Pattern)}
    (h : List.Forall₂ (fun params h => ClauseHead.compile params = .ok h) params hs) :
    clausesFrom i params = .ok (reportingFrom i hs) := by
  induction h generalizing i with
  | nil => rfl
  | cons hfirst _ ih =>
    rw [clausesFrom, hfirst, ih]
    rfl

theorem exists_heads_of_clausesFrom {i : Nat} {params : List (List Pattern)}
    {cs : List (Clause Id (Nat × List Value))} (h : clausesFrom i params = .ok cs) :
    ∃ hs, List.Forall₂ (fun params h => ClauseHead.compile params = .ok h) params hs := by
  induction params generalizing i cs with
  | nil => exact ⟨[], .nil⟩
  | cons first rest ih =>
    rw [clausesFrom] at h
    split at h
    · cases h
    · rename_i head hhead
      split at h
      · cases h
      · rename_i more hmore
        obtain ⟨hs, hall⟩ := ih hmore
        exact ⟨head :: hs, .cons hhead hall⟩

/-- The first clause that does not compile is told by its number. -/
theorem clausesFrom_of_malformed {i : Nat} {before : List (List Pattern)} {params : List Pattern}
    (after : List (List Pattern)) {e : PatternError}
    (hbefore : ∀ q ∈ before, ∃ h, ClauseHead.compile q = .ok h)
    (he : ClauseHead.compile params = .error e) :
    clausesFrom i (before ++ params :: after) = .error (.malformed (i + before.length) e) := by
  induction before generalizing i with
  | nil =>
    rw [List.nil_append, clausesFrom, he]
    rfl
  | cons q before ih =>
    obtain ⟨h, hq⟩ := hbefore q List.mem_cons_self
    rw [List.cons_append, clausesFrom, hq, ih fun q' hq' => hbefore q' (List.mem_cons_of_mem _ hq'),
      List.length_cons, Nat.add_right_comm, Nat.add_assoc]

theorem reporter_of_compiles (h : f.Compiles hs) :
    f.reporter = .ok (.ofClauses (reportingFrom 0 hs)) := by
  rw [reporter, clausesFrom_of_compiles h]
  rfl

theorem exists_compiles_of_reporter {d : Reporter} (h : f.reporter = .ok d) :
    ∃ hs, f.Compiles hs := by
  rw [reporter] at h
  cases hcs : clausesFrom 0 f.clauses with
  | error e => rw [hcs] at h; cases h
  | ok cs => exact exists_heads_of_clausesFrom hcs

theorem getElem?_reportingFrom (i j : Nat) (hs : List ClauseHead) :
    (reportingFrom i hs)[j]? =
      hs[j]?.map fun h => ⟨h, .always, fun bindings => (i + j, bindings)⟩ := by
  induction hs generalizing i j with
  | nil => rfl
  | cons h hs ih =>
    cases j with
    | zero => rfl
    | succ j =>
      rw [reportingFrom, List.getElem?_cons_succ, List.getElem?_cons_succ, ih, Nat.add_assoc,
        Nat.add_comm 1]

/-- The bucket of a number of arguments holds the clauses that take so many. -/
theorem mem_taking_reportingFrom_iff {n j : Nat} {c : Clause Id (Nat × List Value)} :
    (j, c) ∈ ArityTable.taking n 0 (reportingFrom 0 hs) ↔
      ∃ h, hs[j]? = some h ∧ h.Takes n ∧ c = ⟨h, .always, fun bindings => (j, bindings)⟩ := by
  rw [ArityTable.mem_taking_iff, Nat.sub_zero, getElem?_reportingFrom, Nat.zero_add]
  simp only [Nat.zero_le, true_and, Option.map_eq_some_iff]
  constructor
  · rintro ⟨⟨h, hj, rfl⟩, htakes⟩
    exact ⟨h, hj, htakes, rfl⟩
  · rintro ⟨h, hj, htakes, rfl⟩
    exact ⟨⟨h, hj, rfl⟩, htakes⟩

/-- A clause with a smaller number that takes the arguments comes before. -/
theorem mem_before_of_lt {n i j : Nat} {c d : Clause Id (Nat × List Value)}
    {before after : List (Nat × Clause Id (Nat × List Value))}
    (hsplit : ArityTable.taking n 0 (reportingFrom 0 hs) = before ++ (i, c) :: after)
    (hd : (j, d) ∈ ArityTable.taking n 0 (reportingFrom 0 hs)) (hlt : j < i) :
    (j, d) ∈ before := by
  have hsorted := ArityTable.pairwise_taking n 0 (reportingFrom 0 hs)
  rw [hsplit] at hd hsorted
  rcases List.mem_append.mp hd with hbefore | hlater
  · exact hbefore
  · exfalso
    rcases List.mem_cons.mp hlater with heq | hafter
    · cases heq
      omega
    · have hgt := (List.pairwise_cons.mp (List.pairwise_append.mp hsorted).2.1).1 _ hafter
      simp only at hgt
      omega

/-- A call of the function leads to what the heads of its clauses say. -/
theorem exists_leadsTo_call (hs : List ClauseHead) (args : List Value) :
    ∃ r, ClauseHead.LeadsTo hs args r ∧
      Id.run ((Dispatcher.ofClauses (reportingFrom 0 hs)).call .start args) =
        r.mapError fun kind => ⟨kind, Value.displayAll .start args⟩ := by
  rw [Dispatcher.call, Dispatcher.ofClauses, ArityTable.bucket?_ofClauses]
  by_cases hnil : ArityTable.taking args.length 0 (reportingFrom 0 hs) = []
  · rw [if_pos hnil]
    refine ⟨.error .arityNotFound, .arityNotFound fun h hmem htakes => ?_, rfl⟩
    obtain ⟨j, hj⟩ := List.getElem?_of_mem hmem
    have hin := mem_taking_reportingFrom_iff.mpr ⟨h, hj, htakes, rfl⟩
    rw [hnil] at hin
    cases hin
  · rw [if_neg hnil]
    rcases Dispatcher.callAmong_unguarded .start args
        (ArityTable.taking args.length 0 (reportingFrom 0 hs)) (by
          rintro ⟨j, c⟩ hmem
          obtain ⟨h, _, _, rfl⟩ := mem_taking_reportingFrom_iff.mp hmem
          rfl) with ⟨before, i, c, after, bindings, hsplit, hbefore, hbind, hcall⟩ | ⟨hall, hcall⟩
    · have hin : (i, c) ∈ ArityTable.taking args.length 0 (reportingFrom 0 hs) := by
        rw [hsplit]
        simp
      obtain ⟨h, hi, htakes, rfl⟩ := mem_taking_reportingFrom_iff.mp hin
      refine ⟨.ok (i, bindings), .selected hi ⟨htakes, hbind⟩ fun j hlt g hg htakesg => ?_, ?_⟩
      -- It was tried before, and its arguments did not match.
      · exact hbefore _ (mem_before_of_lt hsplit
          (mem_taking_reportingFrom_iff.mpr ⟨g, hg, htakesg, rfl⟩) hlt)
      · show Id.run (Dispatcher.callAmong .start args _) = _
        rw [hcall]
        rfl
    · refine ⟨.error .noMatch, .noMatch ?_ fun j g hg htakes =>
        hall _ (mem_taking_reportingFrom_iff.mpr ⟨g, hg, htakes, rfl⟩), ?_⟩
      · obtain ⟨⟨j, c⟩, hin⟩ := List.exists_mem_of_ne_nil _ hnil
        obtain ⟨h, hj, htakes, _⟩ := mem_taking_reportingFrom_iff.mp hin
        exact ⟨h, List.mem_of_getElem? hj, htakes⟩
      · show Id.run (Dispatcher.callAmong .start args _) = _
        rw [hcall]
        rfl

/-! #### Cases -/

theorem clauseFailure?_eq_none_iff {c : DispatchCase} {i : Nat} :
    clauseFailure? c i = none ↔ ∀ n, c.clause = some n → i = n := by
  rw [clauseFailure?]
  cases c.clause <;> simp

theorem bindingsFailure?_eq_none_iff {c : DispatchCase} {bindings : List Value} :
    bindingsFailure? c bindings = none ↔
      ∀ trees, c.bindings = some trees → Agrees bindings trees := by
  rw [bindingsFailure?]
  cases c.bindings <;> simp [agrees_iff]

/-- What a call leads to is what it answers. -/
theorem outcome_of_leadsTo {c : DispatchCase} {r : Except MatchErrorKind (Nat × List Value)}
    (h : ClauseHead.LeadsTo hs (c.args.map Value.ofJson) r) :
    outcome (.ofClauses (reportingFrom 0 hs)) c =
      r.mapError fun kind => ⟨kind, Value.displayAll .start (c.args.map Value.ofJson)⟩ := by
  obtain ⟨r', hr', hcall⟩ := exists_leadsTo_call hs (c.args.map Value.ofJson)
  obtain rfl := h.unique hr'
  exact hcall

theorem kindText_eq (kind : MatchErrorKind) : kindText kind = kind.name := by
  cases kind <;> rfl

/-- If an error is expected, then nothing else is. -/
theorem caseFailure?_of_refused {c : DispatchCase} {expected kind : MatchErrorKind}
    (herror : c.error = some expected)
    (hcall : ClauseHead.LeadsTo hs (c.args.map Value.ofJson) (.error kind)) :
    caseFailure? (.ofClauses (reportingFrom 0 hs)) c =
      if kind = expected then none else
        some (.wrongError c.name expected
          ⟨kind, Value.displayAll .start (c.args.map Value.ofJson)⟩) := by
  rw [caseFailure?, herror, outcome_of_leadsTo hcall]
  rfl

theorem caseFailure?_of_selected {c : DispatchCase} {i : Nat} {bindings : List Value}
    (herror : c.error = none)
    (hcall : ClauseHead.LeadsTo hs (c.args.map Value.ofJson) (.ok (i, bindings))) :
    caseFailure? (.ofClauses (reportingFrom 0 hs)) c =
      (clauseFailure? c i <|> bindingsFailure? c bindings) := by
  rw [caseFailure?, herror, outcome_of_leadsTo hcall]
  rfl

/-- A case that has something to say is found to fail, and that is said about it. -/
theorem CaseSays.map_text {c : DispatchCase} {said : String} (h : f.CaseSays hs c said) :
    (caseFailure? (.ofClauses (reportingFrom 0 hs)) c).map f.text = some said := by
  cases h with
  | wrongError error call ne =>
    rw [caseFailure?_of_refused error call, if_neg ne, kindText_eq, kindText_eq]
    rfl
  | unexpectedMatch error call =>
    rw [caseFailure?, error, outcome_of_leadsTo call, kindText_eq]
    rfl
  | unexpectedError error call =>
    rw [caseFailure?, error, outcome_of_leadsTo call]
    rfl
  | wrongClause error call clause ne =>
    rw [caseFailure?_of_selected error call, clauseFailure?, clause, Option.bind_some, if_neg ne]
    rfl
  | wrongBindings error call clause expected ne =>
    rw [agrees_iff] at ne
    rw [caseFailure?_of_selected error call, clauseFailure?_eq_none_iff.mpr clause,
      bindingsFailure?, expected, Option.bind_some, if_neg ne]
    rfl

/-- A case holds, or it has something to say. -/
theorem holds_or_exists_caseSays (f : DispatchFixture) (hs : List ClauseHead) (c : DispatchCase) :
    c.Holds hs ∨ ∃ said, f.CaseSays hs c said := by
  obtain ⟨r, hcall, _⟩ := exists_leadsTo_call hs (c.args.map Value.ofJson)
  rw [DispatchCase.Holds]
  cases herror : c.error with
  | some expected =>
    match r, hcall with
    | .ok (i, bindings), hcall => exact .inr ⟨_, .unexpectedMatch herror hcall⟩
    | .error kind, hcall =>
      by_cases hkind : kind = expected
      · exact .inl (hkind ▸ hcall)
      · exact .inr ⟨_, .wrongError herror hcall hkind⟩
  | none =>
    match r, hcall with
    | .error kind, hcall => exact .inr ⟨_, .unexpectedError herror hcall⟩
    | .ok (i, bindings), hcall =>
      by_cases hclause : ∀ n, c.clause = some n → i = n
      · by_cases hbindings : ∀ trees, c.bindings = some trees → Agrees bindings trees
        · exact .inl ⟨i, bindings, hcall, hclause, hbindings⟩
        · simp only [not_forall, exists_prop] at hbindings
          obtain ⟨trees, htrees, hne⟩ := hbindings
          exact .inr ⟨_, .wrongBindings herror hcall hclause htrees hne⟩
      · simp only [not_forall, exists_prop] at hclause
        obtain ⟨n, hn, hne⟩ := hclause
        exact .inr ⟨_, .wrongClause herror hcall hn hne⟩

theorem caseFailure?_of_holds {c : DispatchCase} (h : c.Holds hs) :
    caseFailure? (.ofClauses (reportingFrom 0 hs)) c = none := by
  rw [DispatchCase.Holds] at h
  cases herror : c.error with
  | some expected =>
    rw [herror] at h
    rw [caseFailure?_of_refused herror h, if_pos rfl]
  | none =>
    rw [herror] at h
    obtain ⟨i, bindings, hcall, hclause, hbindings⟩ := h
    rw [caseFailure?_of_selected herror hcall, clauseFailure?_eq_none_iff.mpr hclause,
      bindingsFailure?_eq_none_iff.mpr hbindings]
    rfl

theorem map_text_caseFailure?_eq_none_iff (f : DispatchFixture) (c : DispatchCase) :
    (caseFailure? (.ofClauses (reportingFrom 0 hs)) c).map f.text = none ↔ c.Holds hs := by
  refine ⟨fun h => ?_, fun h => by rw [caseFailure?_of_holds h]; rfl⟩
  refine (holds_or_exists_caseSays f hs c).resolve_right ?_
  rintro ⟨said, hsaid⟩
  rw [hsaid.map_text] at h
  cases h

theorem map_text_caseFailure?_eq_some_iff (f : DispatchFixture) (c : DispatchCase)
    (said : String) :
    (caseFailure? (.ofClauses (reportingFrom 0 hs)) c).map f.text = some said ↔
      f.CaseSays hs c said := by
  refine ⟨fun h => ?_, CaseSays.map_text⟩
  rcases holds_or_exists_caseSays f hs c with hholds | ⟨said', hsaid⟩
  · rw [caseFailure?_of_holds hholds] at h
    cases h
  · obtain rfl := Option.some.inj (h.symm.trans hsaid.map_text)
    exact hsaid

/-! #### Runs -/

/-- If all clauses compile, the cases decide. -/
theorem failure?_of_compiles (h : f.Compiles hs) :
    f.failure? = f.cases.findSome? (caseFailure? (.ofClauses (reportingFrom 0 hs))) := by
  rw [failure?, reporter_of_compiles h]

theorem verdict?_alone (h : f.Compiles hs) (c : DispatchCase) :
    (f.alone c).verdict? = (caseFailure? (.ofClauses (reportingFrom 0 hs)) c).map f.text := by
  have hfailure : (f.alone c).failure? = [c].findSome? (caseFailure? _) :=
    failure?_of_compiles (f := f.alone c) h
  rw [verdict?, hfailure, List.findSome?_singleton]
  rfl

theorem verdict?_eq_findSome? (h : f.Compiles hs) :
    f.verdict? = f.cases.findSome? fun c => (f.alone c).verdict? := by
  rw [verdict?, failure?_of_compiles h, List.map_findSome?]
  congr 1
  funext c
  exact (verdict?_alone h c).symm

theorem verdict?_alone_eq_none_iff (h : f.Compiles hs) (c : DispatchCase) :
    (f.alone c).verdict? = none ↔ c.Holds hs := by
  rw [verdict?_alone h, map_text_caseFailure?_eq_none_iff]

theorem verdict?_alone_eq_some_iff (h : f.Compiles hs) (c : DispatchCase) (said : String) :
    (f.alone c).verdict? = some said ↔ f.CaseSays hs c said := by
  rw [verdict?_alone h, map_text_caseFailure?_eq_some_iff]

/-- A run that gets to its cases finds the first one that fails by itself. -/
theorem verdict?_eq_some_iff (h : f.Compiles hs) (said : String) :
    f.verdict? = some said ↔ ∃ before c after, f.cases = before ++ c :: after ∧
      (f.alone c).verdict? = some said ∧ ∀ b ∈ before, (f.alone b).verdict? = none := by
  rw [verdict?_eq_findSome? h, List.findSome?_eq_some_iff]

theorem exists_compiles_of_passes (h : f.verdict? = none) : ∃ hs, f.Compiles hs := by
  rw [verdict?, Option.map_eq_none_iff, failure?] at h
  cases hreporter : f.reporter with
  | error e => rw [hreporter] at h; cases h
  | ok d => exact exists_compiles_of_reporter hreporter

theorem passes_iff_of_compiles (h : f.Compiles hs) :
    f.verdict? = none ↔ ∀ c ∈ f.cases, c.Holds hs := by
  rw [verdict?_eq_findSome? h, List.findSome?_eq_none_iff]
  exact forall₂_congr fun c _ => verdict?_alone_eq_none_iff h c

theorem passes_iff :
    f.verdict? = none ↔ ∃ hs, f.Compiles hs ∧ ∀ c ∈ f.cases, c.Holds hs := by
  constructor
  · intro hpass
    obtain ⟨hs, hhs⟩ := exists_compiles_of_passes hpass
    exact ⟨hs, hhs, (passes_iff_of_compiles hhs).mp hpass⟩
  · rintro ⟨hs, hhs, hall⟩
    exact (passes_iff_of_compiles hhs).mpr hall

theorem isJudged (f : DispatchFixture) : f.IsJudged where
  passes_iff := passes_iff
  says_malformed before params after e hsplit hbefore he := by
    rw [verdict?, failure?, reporter, hsplit, clausesFrom_of_malformed after hbefore he,
      Nat.zero_add]
    rfl
  call_leadsTo d hd hs hhs args := by
    rw [reporter_of_compiles hhs] at hd
    cases hd
    exact exists_leadsTo_call hs args
  says_case hs hhs before c after hsplit hbefore said hsaid := by
    refine (verdict?_eq_some_iff hhs said).mpr ⟨before, c, after, hsplit, ?_, fun b hb => ?_⟩
    · exact (verdict?_alone_eq_some_iff hhs c said).mpr hsaid
    · exact (verdict?_alone_eq_none_iff hhs b).mpr (hbefore b hb)
  alone_iff hs hhs c := ⟨verdict?_alone_eq_none_iff hhs c, verdict?_alone_eq_some_iff hhs c⟩
  reports_iff hs hhs said := verdict?_eq_some_iff hhs said

end DispatchFixture

/-- **Every fixture is judged by what it states**, and what is said about a fixture that fails names
the first of its cases that does. -/
theorem fixtures_are_judged :
    (∀ complaint, ∀ f : PatternFixture, f.IsJudged complaint) ∧
      ∀ f : DispatchFixture, f.IsJudged :=
  ⟨PatternFixture.isJudged, DispatchFixture.isJudged⟩

end StructuralMatching
