/-
Calls that wait for their guards and bodies.

However often guards and bodies are not ready, such a call comes to the result of a call whose
guards and bodies answer at once; and it never does two things at the same time, nor anything out
of order.  To see what it does, guards and bodies are replaced by ones that report when they are
started and what they come to:

* `AsyncClause.resolved` — a clause whose guard and body answer at once;
* `AsyncDispatcher.result_call` — the result of a call is that of the call that does not wait;
* `AsyncClause.observed` — a clause that reports what happens to it;
* `Permitted` — what may happen after what has happened so far;
* `AsyncDispatcher.orderly_call` — nothing else happens;
* `AsyncDispatcher.call_settles_orderly` — both for a call that is polled.

Design notes: `Permitted` looks at the reports before a point and at no state of the call.  So what
it holds of is closed under prefixes, and what is known of all reports is known of those that have
been made after some polls.
-/
import StructuralMatching.Dispatch.Async
import StructuralMatching.Proofs.Dispatch.Scan
import StructuralMatching.Proofs.Polling

namespace StructuralMatching

variable {ε R : Type}

/-! ### Answers at once -/

/-- The clause with a guard and a body that answer at once; no guard accepts everything. -/
def AsyncClause.resolved (c : AsyncClause ε R) : Clause (Except Panic) R where
  head := c.head
  guard bindings :=
    match c.guard with
    | none => Guard.always bindings
    | some guard => (guard bindings).result
  body bindings := (c.body bindings).result

namespace AsyncDispatcher

theorem result_callAmong (o : Occasion) (args : List Value)
    (entries : List (Nat × AsyncClause ε R)) :
    (callAmong o args entries).result =
      Dispatcher.callAmong o args (entries.map fun entry => (entry.1, entry.2.resolved)) := by
  induction entries with
  | nil => rfl
  | cons entry rest ih =>
    obtain ⟨i, c⟩ := entry
    have hhead : c.resolved.head = c.head := rfl
    rw [List.map_cons, Dispatcher.callAmong_cons, callAmong, ← ih, hhead]
    cases c.head.bind? (o.step i) (c.head.fill args) with
    | none => rfl
    | some bindings =>
      obtain ⟨head, guard, body⟩ := c
      cases guard with
      | none => exact Deferred.result_bind _ _
      | some guard =>
        refine (Deferred.result_bind _ _).trans ?_
        refine congrArg ((guard bindings).result >>= ·) (funext fun accepted => ?_)
        cases accepted with
        | true => exact Deferred.result_bind _ _
        | false => rfl

/-- **A call that waits comes to the result of the call that does not.** -/
theorem result_call_eq (cs : List (AsyncClause ε R)) (o : Occasion) (args : List Value) :
    ((ofClauses cs).call o args).result =
      (Dispatcher.ofClauses (cs.map AsyncClause.resolved)).call o args := by
  rw [call, Dispatcher.call, ofClauses, Dispatcher.ofClauses, ArityTable.bucket?_ofClauses,
    ArityTable.bucket?_ofClauses, ArityTable.taking_map (f := AsyncClause.resolved) fun _ => rfl]
  by_cases h : ArityTable.taking args.length 0 cs = []
  · rw [h]
    rfl
  · rw [if_neg h, if_neg (mt List.map_eq_nil_iff.mp h)]
    exact result_callAmong o args _

end AsyncDispatcher

/-! ### What happens in a call -/

/-- Something that happens in a call. -/
inductive CallEvent (ε : Type) where
  | guardStarted (i : Nat) (bindings : List Value)
  | guardResolved (i : Nat) (accepted : Bool)
  | bodyStarted (i : Nat) (bindings : List Value)
  /-- What the guard or the body of clause `i` reports of itself. -/
  | report (i : Nat) (e : ε)

namespace CallEvent

/-- What a guard or a body reports of itself. -/
def own? : CallEvent ε → Option ε
  | report _ e => some e
  | _ => none

/-- The number of the clause it happens to. -/
def clause : CallEvent ε → Nat
  | guardStarted i _ => i
  | guardResolved i _ => i
  | bodyStarted i _ => i
  | report i _ => i

end CallEvent

namespace AsyncClause

/-- The guard of clause `i`, which reports that it is started and what it comes to. -/
def observedGuard (i : Nat) (guard : Guard (Deferred ε)) : Guard (Deferred (CallEvent ε)) :=
  fun bindings =>
    .event (.guardStarted i bindings)
      (((guard bindings).filterMapEvents fun e => some (.report i e)).bind fun accepted =>
        .event (.guardResolved i accepted) (.done accepted))

/-- The clause with number `i`, which also reports that its body is started. -/
def observed (i : Nat) (c : AsyncClause ε R) : AsyncClause (CallEvent ε) R where
  head := c.head
  guard := c.guard.map (observedGuard i)
  body bindings :=
    .event (.bodyStarted i bindings)
      ((c.body bindings).filterMapEvents fun e => some (.report i e))

/-- The clause with number `i` takes so many arguments and its parameters match them. -/
def Accepts (c : AsyncClause ε R) (o : Occasion) (i : Nat) (args bindings : List Value) : Prop :=
  c.head.Takes args.length ∧ c.head.bind? (o.step i) (c.head.fill args) = some bindings

end AsyncClause

section Order

variable (cs : List (AsyncClause ε R)) (o : Occasion) (args : List Value)

/-- It is the turn of clause `i`: all clauses before it that accept the arguments have rejected
them by their guards, no later one has been started, and no body. -/
structure Turn (i : Nat) (before : List (CallEvent ε)) : Prop where
  rejected : ∀ j c bindings, j < i → cs[j]? = some c → c.Accepts o j args bindings →
    .guardResolved j false ∈ before
  latest : ∀ j bindings, .guardStarted j bindings ∈ before → j ≤ i
  settled : ∀ j bindings, .guardStarted j bindings ∈ before → j < i →
    .guardResolved j false ∈ before
  no_body : ∀ j bindings, .bodyStarted j bindings ∉ before

/-- The guard of clause `i` is being waited for. -/
def Guarding (i : Nat) (before : List (CallEvent ε)) : Prop :=
  (∃ bindings, .guardStarted i bindings ∈ before) ∧ ∀ accepted, .guardResolved i accepted ∉ before

/-- What may happen in a call after what has happened so far. -/
def Permitted (before : List (CallEvent ε)) : CallEvent ε → Prop
  | .guardStarted i bindings =>
    Turn cs o args i before ∧ (∀ bindings, .guardStarted i bindings ∉ before) ∧
      ∃ c, cs[i]? = some c ∧ c.Accepts o i args bindings ∧ c.guard.isSome = true
  | .guardResolved i _ => Guarding i before
  | .bodyStarted i bindings =>
    Turn cs o args i before ∧
      ∃ c, cs[i]? = some c ∧ c.Accepts o i args bindings ∧
        (c.guard.isSome = true → .guardResolved i true ∈ before)
  | .report i _ => Guarding i before ∨ ∃ bindings, .bodyStarted i bindings ∈ before

/-- All that happens is permitted when it happens, `past` being what has happened before. -/
def Orderly (past log : List (CallEvent ε)) : Prop :=
  ∀ before e after, log = before ++ e :: after → Permitted cs o args (past ++ before) e

end Order

section Order

variable {cs : List (AsyncClause ε R)} {o : Occasion} {args : List Value}

theorem orderly_nil (past : List (CallEvent ε)) : Orderly cs o args past [] := by
  intro before e after h
  cases before <;> cases h

theorem orderly_cons {past log : List (CallEvent ε)} {e : CallEvent ε}
    (he : Permitted cs o args past e) (hlog : Orderly cs o args (past ++ [e]) log) :
    Orderly cs o args past (e :: log) := by
  rintro (_ | ⟨first, before⟩) last after h
  · cases h
    rw [List.append_nil]
    exact he
  · cases h
    rw [List.append_cons]
    exact hlog before last after rfl

theorem orderly_append {past log more : List (CallEvent ε)} (hlog : Orderly cs o args past log)
    (hmore : Orderly cs o args (past ++ log) more) : Orderly cs o args past (log ++ more) := by
  intro before e after h
  rcases List.append_eq_append_iff.mp h with ⟨mid, rfl, hmid⟩ | ⟨mid, rfl, hmid⟩
  · rw [← List.append_assoc]
    exact hmore mid e after hmid
  · cases mid with
    | nil =>
      have he := hmore [] e after hmid.symm
      rw [List.append_nil, List.append_nil] at he
      exact he
    | cons first mid =>
      cases hmid
      exact hlog before e mid rfl

/-- What is orderly so far does not depend on what is to come. -/
theorem Orderly.of_append {past log more : List (CallEvent ε)}
    (h : Orderly cs o args past (log ++ more)) : Orderly cs o args past log := by
  rintro before e after rfl
  exact h before e (after ++ more) (by rw [List.append_assoc, List.cons_append])

/-! ### Guards and bodies under observation -/

/-- What guards and bodies report of themselves is no start and no end. -/
theorem mem_append_report_iff {past : List (CallEvent ε)} {i : Nat} {e : ε} {x : CallEvent ε}
    (hx : x.own? = none) : x ∈ past ++ [.report i e] ↔ x ∈ past := by
  rw [List.mem_append, List.mem_singleton]
  constructor
  · rintro (h | rfl)
    · exact h
    · cases hx
  · exact .inl

theorem Guarding.report {past : List (CallEvent ε)} {i : Nat} (h : Guarding i past) (e : ε) :
    Guarding i (past ++ [.report i e]) := by
  obtain ⟨⟨bindings, hstarted⟩, hunresolved⟩ := h
  refine ⟨⟨bindings, (mem_append_report_iff rfl).mpr hstarted⟩, fun accepted hmem => ?_⟩
  exact hunresolved accepted ((mem_append_report_iff rfl).mp hmem)

theorem Guarding.reports {past : List (CallEvent ε)} {i : Nat} (h : Guarding i past)
    (es : List ε) :
    Orderly cs o args past (es.map (.report i)) ∧ Guarding i (past ++ es.map (.report i)) := by
  induction es generalizing past with
  | nil =>
    rw [List.map_nil, List.append_nil]
    exact ⟨orderly_nil past, h⟩
  | cons e es ih =>
    obtain ⟨horderly, hguarding⟩ := ih (h.report e)
    rw [List.append_assoc] at hguarding
    exact ⟨orderly_cons (.inl h) horderly, hguarding⟩

theorem orderly_reports_of_body {past : List (CallEvent ε)} {i : Nat} {bindings : List Value}
    (h : .bodyStarted i bindings ∈ past) (es : List ε) :
    Orderly cs o args past (es.map (.report i)) := by
  induction es generalizing past with
  | nil => exact orderly_nil past
  | cons e es ih =>
    exact orderly_cons (.inr ⟨bindings, h⟩) (ih (List.mem_append_left _ h))

/-- The events of a guard of which the result is known. -/
def guardLog (i : Nat) (bindings : List Value) (es : List ε) (accepted : Bool) :
    List (CallEvent ε) :=
  .guardStarted i bindings :: (es.map (.report i) ++ [.guardResolved i accepted])

theorem clause_of_mem_guardLog {i : Nat} {bindings : List Value} {es : List ε} {accepted : Bool}
    {e : CallEvent ε} (h : e ∈ guardLog i bindings es accepted) :
    e.clause = i ∧ ∀ j b, e ≠ .bodyStarted j b := by
  rcases List.mem_cons.mp h with rfl | h
  · exact ⟨rfl, fun _ _ => nofun⟩
  · rcases List.mem_append.mp h with h | h
    · obtain ⟨_, _, rfl⟩ := List.mem_map.mp h
      exact ⟨rfl, fun _ _ => nofun⟩
    · cases List.mem_singleton.mp h
      exact ⟨rfl, fun _ _ => nofun⟩

theorem orderly_guardLog {past : List (CallEvent ε)} {i : Nat} {bindings : List Value}
    (h : Permitted cs o args past (.guardStarted i bindings)) (hpast : ∀ e ∈ past, e.clause < i)
    (es : List ε) :
    Orderly cs o args past (.guardStarted i bindings :: es.map (.report i)) ∧
      ∀ accepted, Orderly cs o args past (guardLog i bindings es accepted) := by
  have hguarding : Guarding i (past ++ [.guardStarted i bindings]) := by
    refine ⟨⟨bindings, by simp⟩, fun accepted hmem => ?_⟩
    rcases List.mem_append.mp hmem with hmem | hmem
    · exact absurd (hpast _ hmem) (Nat.lt_irrefl i)
    · cases List.mem_singleton.mp hmem
  have hboth : Orderly cs o args (past ++ [.guardStarted i bindings]) (es.map (.report i)) ∧ _ :=
    hguarding.reports es
  obtain ⟨hreports, hstill⟩ := hboth
  refine ⟨orderly_cons h hreports, fun accepted => orderly_cons h ?_⟩
  exact orderly_append hreports (orderly_cons hstill (orderly_nil _))

/-! ### Turns -/

theorem Turn.append {i : Nat} {past log : List (CallEvent ε)} (h : Turn cs o args i past)
    (hlog : ∀ e ∈ log, e.clause = i ∧ ∀ j b, e ≠ .bodyStarted j b) :
    Turn cs o args i (past ++ log) where
  rejected j c bindings hj hc hacc := List.mem_append_left _ (h.rejected j c bindings hj hc hacc)
  latest j bindings hmem := by
    rcases List.mem_append.mp hmem with hmem | hmem
    · exact h.latest j bindings hmem
    · exact Nat.le_of_eq (hlog _ hmem).1
  settled j bindings hmem hj := by
    rcases List.mem_append.mp hmem with hmem | hmem
    · exact List.mem_append_left _ (h.settled j bindings hmem hj)
    · exact absurd (hlog _ hmem).1 (Nat.ne_of_lt hj)
  no_body j bindings hmem := by
    rcases List.mem_append.mp hmem with hmem | hmem
    · exact h.no_body j bindings hmem
    · exact (hlog _ hmem).2 j bindings rfl

/-- It is the turn of the next clause as soon as the guard of this one has rejected. -/
theorem Turn.succ_of_rejected {i : Nat} {past : List (CallEvent ε)} (h : Turn cs o args i past)
    (hr : .guardResolved i false ∈ past) : Turn cs o args (i + 1) past where
  rejected j c bindings hj hc hacc := by
    rcases Nat.lt_succ_iff_lt_or_eq.mp hj with hj | rfl
    · exact h.rejected j c bindings hj hc hacc
    · exact hr
  latest j bindings hmem := Nat.le_succ_of_le (h.latest j bindings hmem)
  settled j bindings hmem hj := by
    rcases Nat.lt_succ_iff_lt_or_eq.mp hj with hj | rfl
    · exact h.settled j bindings hmem hj
    · exact hr
  no_body := h.no_body

/-- It is the turn of the next clause if this one does not accept the arguments. -/
theorem Turn.succ_of_not_accepts {i : Nat} {past : List (CallEvent ε)}
    (h : Turn cs o args i past) (hpast : ∀ e ∈ past, e.clause < i)
    (hc : ∀ c bindings, cs[i]? = some c → ¬c.Accepts o i args bindings) :
    Turn cs o args (i + 1) past where
  rejected j c bindings hj hget hacc := by
    rcases Nat.lt_succ_iff_lt_or_eq.mp hj with hj | rfl
    · exact h.rejected j c bindings hj hget hacc
    · exact absurd hacc (hc c bindings hget)
  latest j bindings hmem := Nat.le_succ_of_le (h.latest j bindings hmem)
  settled j bindings hmem _ := h.settled j bindings hmem (hpast _ hmem)
  no_body := h.no_body

end Order

/-! ### Calls under observation -/

namespace AsyncClause

theorem events_body_observed (i : Nat) (c : AsyncClause ε R) (bindings : List Value) :
    ((c.observed i).body bindings).events =
      .bodyStarted i bindings :: (c.body bindings).events.map (.report i) := by
  show _ :: (Deferred.filterMapEvents _ _).events = _
  rw [Deferred.events_filterMapEvents, List.filterMap_eq_map']

theorem filterMapEvents_body_observed (i : Nat) (c : AsyncClause ε R) (bindings : List Value) :
    ((c.observed i).body bindings).filterMapEvents CallEvent.own? = c.body bindings :=
  Deferred.filterMapEvents_of_leftInverse (f := CallEvent.report i) (fun _ => rfl) _

theorem filterMapEvents_observedGuard (i : Nat) (guard : Guard (Deferred ε))
    (bindings : List Value) :
    (observedGuard i guard bindings).filterMapEvents CallEvent.own? = guard bindings := by
  show (Deferred.bind _ _).filterMapEvents _ = _
  rw [Deferred.filterMapEvents_bind,
    Deferred.filterMapEvents_of_leftInverse (f := CallEvent.report i) fun _ => rfl]
  exact Deferred.bind_done _

/-- What a guard reports, and what is reported after it; nothing is if it is aborted. -/
theorem events_bind_guard_observed (i : Nat) (guard : Guard (Deferred ε)) (bindings : List Value)
    (next : Bool → Deferred (CallEvent ε) R) :
    ((observedGuard i guard bindings).bind next).events =
      match (guard bindings).result with
      | .ok accepted =>
        guardLog i bindings (guard bindings).events accepted ++ (next accepted).events
      | .error _ => .guardStarted i bindings :: (guard bindings).events.map (.report i) := by
  have hevents : ((guard bindings).filterMapEvents fun e => some (CallEvent.report i e)).events =
      (guard bindings).events.map (.report i) := by
    rw [Deferred.events_filterMapEvents, List.filterMap_eq_map']
  rw [observedGuard, Deferred.bind, Deferred.events, Deferred.events_bind, Deferred.eventsAfter,
    Deferred.events_bind, Deferred.eventsAfter, Deferred.result_bind,
    Deferred.result_filterMapEvents, hevents]
  cases (guard bindings).result with
  | error reason => simp [bind, Except.bind]
  | ok accepted => simp [bind, Except.bind, Deferred.result, Deferred.events, guardLog]

end AsyncClause

namespace AsyncDispatcher

variable {cs : List (AsyncClause ε R)} {o : Occasion} {args : List Value}

theorem callAmong_observed_cons (i : Nat) (c : AsyncClause ε R)
    (rest : List (Nat × AsyncClause (CallEvent ε) R)) :
    callAmong o args ((i, c.observed i) :: rest) =
      match c.head.bind? (o.step i) (c.head.fill args) with
      | none => callAmong o args rest
      | some bindings =>
        match c.guard with
        | none => ((c.observed i).body bindings).bind fun r => .done (.ok r)
        | some guard =>
          (AsyncClause.observedGuard i guard bindings).bind fun accepted =>
            if accepted then ((c.observed i).body bindings).bind fun r => .done (.ok r)
            else callAmong o args rest := by
  obtain ⟨head, guard, body⟩ := c
  rw [callAmong]
  cases guard with
  | none => rfl
  | some guard => rfl

/-- A body is started in its turn and nothing comes after it. -/
theorem orderly_body {past : List (CallEvent ε)} {i : Nat} {c : AsyncClause ε R}
    {bindings : List Value} (h : Permitted cs o args past (.bodyStarted i bindings)) :
    Orderly cs o args past (((c.observed i).body bindings).bind fun r =>
      .done (Except.ok r : Except MatchError R)).events := by
  rw [Deferred.events_bind_done, AsyncClause.events_body_observed]
  have hstarted : .bodyStarted i bindings ∈ past ++ [.bodyStarted i bindings] :=
    List.mem_append_right _ (List.mem_singleton_self _)
  exact orderly_cons h (orderly_reports_of_body hstarted _)

/-- A guard is started in its turn, and what comes after it, comes after it has been resolved. -/
theorem orderly_guard {past : List (CallEvent ε)} {i : Nat} {guard : Guard (Deferred ε)}
    {bindings : List Value} {next : Bool → Deferred (CallEvent ε) (Except MatchError R)}
    (h : Permitted cs o args past (.guardStarted i bindings)) (hpast : ∀ e ∈ past, e.clause < i)
    (hnext : ∀ accepted, Orderly cs o args
      (past ++ guardLog i bindings (guard bindings).events accepted) (next accepted).events) :
    Orderly cs o args past
      ((AsyncClause.observedGuard i guard bindings).bind next).events := by
  obtain ⟨haborted, hresolved⟩ := orderly_guardLog h hpast (guard bindings).events
  rw [AsyncClause.events_bind_guard_observed]
  cases (guard bindings).result with
  | error reason => exact haborted
  | ok accepted => exact orderly_append (hresolved accepted) (hnext accepted)

/-- The clauses from number `i` on are tried in good order if it is the turn of clause `i` and
nothing has happened to it or to later ones. -/
theorem orderly_callAmong {rest : List (AsyncClause ε R)} {i : Nat} {past : List (CallEvent ε)}
    (hrest : ∀ k, cs[i + k]? = rest[k]?) (hturn : Turn cs o args i past)
    (hpast : ∀ e ∈ past, e.clause < i) :
    Orderly cs o args past (callAmong o args ((ArityTable.taking args.length i rest).map
      fun entry => (entry.1, entry.2.observed entry.1))).events := by
  induction rest generalizing i past with
  | nil => exact orderly_nil past
  | cons c rest ih =>
    have hc : cs[i]? = some c := hrest 0
    have hnext : ∀ k, cs[i + 1 + k]? = rest[k]? := fun k => by
      rw [Nat.add_assoc, Nat.add_comm 1]
      exact hrest (k + 1)
    have hlater : ∀ e ∈ past, e.clause < i + 1 := fun e he => Nat.lt_succ_of_lt (hpast e he)
    -- A clause that does not accept the arguments leaves no trace.
    have hskip : (∀ bindings, ¬c.Accepts o i args bindings) → Turn cs o args (i + 1) past := by
      intro hno
      refine hturn.succ_of_not_accepts hpast fun d bindings hd => ?_
      cases hc.symm.trans hd
      exact hno bindings
    rw [ArityTable.taking]
    by_cases htakes : (Headed.head c).Takes args.length
    · rw [if_pos htakes, List.map_cons, callAmong_observed_cons]
      cases hbind : c.head.bind? (o.step i) (c.head.fill args) with
      | none =>
        refine ih hnext (hskip fun bindings hacc => ?_) hlater
        rw [hacc.2] at hbind
        cases hbind
      | some bindings =>
        have hacc : c.Accepts o i args bindings := ⟨htakes, hbind⟩
        cases hguard : c.guard with
        | none =>
          refine orderly_body ⟨hturn, c, hc, hacc, fun hsome => ?_⟩
          rw [hguard] at hsome
          cases hsome
        | some guard =>
          have hsome : c.guard.isSome = true := by rw [hguard]; rfl
          have hstart : Permitted cs o args past (.guardStarted i bindings) := by
            refine ⟨hturn, fun b hb => ?_, c, hc, hacc, hsome⟩
            exact Nat.lt_irrefl i (hpast _ hb)
          refine orderly_guard hstart hpast fun accepted => ?_
          have hturn' : Turn cs o args i
              (past ++ guardLog i bindings (guard bindings).events accepted) :=
            hturn.append fun e he => clause_of_mem_guardLog he
          have hmem : .guardResolved i accepted ∈
              past ++ guardLog i bindings (guard bindings).events accepted := by
            simp [guardLog]
          cases accepted with
          | true => exact orderly_body ⟨hturn', c, hc, hacc, fun _ => hmem⟩
          | false =>
            refine ih hnext (hturn'.succ_of_rejected hmem) fun e he => ?_
            rcases List.mem_append.mp he with he | he
            · exact hlater e he
            · exact Nat.lt_succ_of_le (Nat.le_of_eq (clause_of_mem_guardLog he).1)
    · rw [if_neg htakes]
      exact ih hnext (hskip fun bindings hacc => htakes hacc.1) hlater

/-- The call of the same clauses under observation. -/
def callObserved (cs : List (AsyncClause ε R)) (o : Occasion) (args : List Value) :
    Deferred (CallEvent ε) (Except MatchError R) :=
  (ofClauses (cs.mapIdx fun i c => c.observed i)).call o args

theorem callObserved_eq (cs : List (AsyncClause ε R)) (o : Occasion) (args : List Value) :
    callObserved cs o args =
      if ArityTable.taking args.length 0 cs = [] then .done (.error (.arityNotFound o args))
      else callAmong o args ((ArityTable.taking args.length 0 cs).map
        fun entry => (entry.1, entry.2.observed entry.1)) := by
  have htaking : ArityTable.taking args.length 0 (cs.mapIdx fun i c => c.observed i) =
      (ArityTable.taking args.length 0 cs).map
        fun entry => (entry.1, entry.2.observed entry.1) := by
    rw [← ArityTable.taking_mapIdx (f := AsyncClause.observed) fun _ _ => rfl]
    congr 2
    funext i
    rw [Nat.zero_add]
  rw [callObserved, call, ofClauses, ArityTable.bucket?_ofClauses, htaking]
  by_cases h : ArityTable.taking args.length 0 cs = []
  · rw [h]
    rfl
  · rw [if_neg h, if_neg (mt List.map_eq_nil_iff.mp h)]

/-- To observe a call changes nothing but what is reported. -/
theorem filterMapEvents_callAmong (entries : List (Nat × AsyncClause ε R)) :
    (callAmong o args (entries.map fun entry =>
        (entry.1, entry.2.observed entry.1))).filterMapEvents CallEvent.own? =
      callAmong o args entries := by
  have hbody : ∀ i (c : AsyncClause ε R) bindings, (((c.observed i).body bindings).bind
      fun r => .done (Except.ok r : Except MatchError R)).filterMapEvents CallEvent.own? =
        (c.body bindings).bind fun r => .done (.ok r) := by
    intro i c bindings
    rw [Deferred.filterMapEvents_bind, AsyncClause.filterMapEvents_body_observed]
    rfl
  induction entries with
  | nil => rfl
  | cons entry rest ih =>
    obtain ⟨i, c⟩ := entry
    rw [List.map_cons, callAmong_observed_cons, callAmong]
    cases c.head.bind? (o.step i) (c.head.fill args) with
    | none => exact ih
    | some bindings =>
      cases hguard : c.guard with
      | none => exact hbody i c bindings
      | some guard =>
        refine (Deferred.filterMapEvents_bind _ _ _).trans ?_
        rw [AsyncClause.filterMapEvents_observedGuard]
        refine congrArg (Deferred.bind _) (funext fun accepted => ?_)
        cases accepted with
        | true => exact hbody i c bindings
        | false => exact ih

theorem filterMapEvents_callObserved (cs : List (AsyncClause ε R)) (o : Occasion)
    (args : List Value) :
    (callObserved cs o args).filterMapEvents CallEvent.own? = (ofClauses cs).call o args := by
  rw [callObserved_eq, call, ofClauses, ArityTable.bucket?_ofClauses]
  split
  · rfl
  · exact filterMapEvents_callAmong _

theorem orderly_callObserved (cs : List (AsyncClause ε R)) (o : Occasion) (args : List Value) :
    Orderly cs o args [] (callObserved cs o args).events := by
  rw [callObserved_eq]
  split
  · exact orderly_nil []
  · refine orderly_callAmong (fun k => by rw [Nat.zero_add]) ?_ nofun
    exact ⟨fun j _ _ hj => absurd hj (Nat.not_lt_zero j), nofun, nofun, nofun⟩

/-- **A call that is polled comes to the result of the call that does not wait, and by then all has
happened in good order.** -/
theorem call_settles_orderly (cs : List (AsyncClause ε R)) (o : Occasion) (args : List Value) :
    (∀ k, (((ofClauses cs).call o args).polls k).2.result =
        (Dispatcher.ofClauses (cs.map AsyncClause.resolved)).call o args) ∧
      (∀ k, ((ofClauses cs).call o args).pendings < k →
        (((ofClauses cs).call o args).polls k).2 =
          .ofExcept ((Dispatcher.ofClauses (cs.map AsyncClause.resolved)).call o args)) ∧
      ∀ k, ((callObserved cs o args).polls k).1.filterMap CallEvent.own? =
          (((ofClauses cs).call o args).polls k).1 ∧
        Orderly cs o args [] ((callObserved cs o args).polls k).1 := by
  refine ⟨fun k => ?_, fun k hk => ?_, fun k => ⟨?_, ?_⟩⟩
  · rw [Deferred.result_polls, result_call_eq]
  · rw [Deferred.polls_eq_ofExcept hk, result_call_eq]
  · rw [← filterMapEvents_callObserved, Deferred.polls_filterMapEvents]
  · have h := orderly_callObserved cs o args
    rw [← Deferred.events_polls k] at h
    exact h.of_append

/-- A clause that another argument matches, one whose guard rejects after a while, one whose guard
accepts at once and whose body is late, and one that comes too late. -/
def fourClauses : List (AsyncClause String Nat) :=
  [⟨⟨[.equalTo (.int 9)], []⟩, some fun _ => .aborted ⟨"not to be asked"⟩, fun _ => .done 1⟩,
    ⟨⟨[.var (some "x")], []⟩, some fun _ => .event "asked" (.after 1 (.done false)),
      fun _ => .done 2⟩,
    ⟨⟨[.anything], []⟩, some fun _ => .done true, fun _ => .after 1 (.event "found" (.done 3))⟩,
    ⟨⟨[.anything], []⟩, none, fun _ => .done 4⟩]

/-- What happens in a call with one argument until it is not ready, and in the two polls after
that. -/
theorem call_settles_orderly_late :
    ((ofClauses fourClauses).call .start [.int 7]).pendings = 2 ∧
      (((ofClauses fourClauses).call .start [.int 7]).polls 1).2.result = .ok (.ok 3) ∧
      (((ofClauses fourClauses).call .start [.int 7]).polls 3).2 = .done (.ok 3) ∧
      ((callObserved fourClauses .start [.int 7]).polls 1).1 =
        [.guardStarted 1 [.int 7], .report 1 "asked"] ∧
      ((callObserved fourClauses .start [.int 7]).polls 3).1 =
        [.guardStarted 1 [.int 7], .report 1 "asked", .guardResolved 1 false,
          .guardStarted 2 [], .guardResolved 2 true, .bodyStarted 2 [], .report 2 "found"] ∧
      (((ofClauses fourClauses).call .start [.int 7]).polls 3).1 = ["asked", "found"] ∧
      Orderly fourClauses .start [.int 7] []
        ((callObserved fourClauses .start [.int 7]).polls 3).1 := by
  obtain ⟨hresult, hdone, hevents⟩ := call_settles_orderly fourClauses .start [.int 7]
  exact ⟨rfl, hresult 1, hdone 3 (by decide), rfl, rfl, rfl, (hevents 3).2⟩

end AsyncDispatcher

end StructuralMatching
