/-
Computations that are polled.

Whoever waits for a computation polls it: it goes on until it is not ready, and has to be polled
again.  However often that happens, nothing of its end and of its reports depends on it:

* `Deferred.poll`, `Deferred.polls` — what is reported by one poll, and by several of them, and
  what is left then;
* `Deferred.events_polls`, `Deferred.result_polls` — reports come in order and none is lost, and
  the result stays the same;
* `Deferred.polls_eq_ofExcept` — after enough polls nothing but the result is left;
* `Deferred.filterMapEvents` — a computation with other reports.
-/
import StructuralMatching.Deferred

namespace StructuralMatching.Deferred

variable {ε ι α β : Type}

/-! ### One computation after the other -/

@[simp] theorem result_bind (d : Deferred ε α) (f : α → Deferred ε β) :
    (d.bind f).result = d.result >>= fun a => (f a).result := by
  induction d with
  | done a => rfl
  | aborted reason => rfl
  | pending rest ih => exact ih
  | event e rest ih => exact ih

theorem bind_done (d : Deferred ε α) : d.bind done = d := by
  induction d with
  | done a => rfl
  | aborted reason => rfl
  | pending rest ih => exact congrArg pending ih
  | event e rest ih => exact congrArg (event e) ih

instance : LawfulMonad (Deferred ε) :=
  LawfulMonad.mk' (Deferred ε) (fun d => bind_done d) (fun _ _ => rfl) fun d f g => by
    induction d with
    | done a => rfl
    | aborted reason => rfl
    | pending rest ih => exact congrArg pending ih
    | event e rest ih => exact congrArg (event e) ih

/-- What is reported after a computation: nothing if it is aborted. -/
def eventsAfter (d : Deferred ε α) (f : α → Deferred ε β) : List ε :=
  match d.result with
  | .ok a => (f a).events
  | .error _ => []

@[simp] theorem events_bind (d : Deferred ε α) (f : α → Deferred ε β) :
    (d.bind f).events = d.events ++ d.eventsAfter f := by
  induction d with
  | done a => rfl
  | aborted reason => rfl
  | pending rest ih => exact ih
  | event e rest ih => exact congrArg (e :: ·) ih

@[simp] theorem events_bind_done (d : Deferred ε α) (f : α → β) :
    (d.bind fun a => done (f a)).events = d.events := by
  have hafter : (d.eventsAfter fun a => done (f a)) = [] := by
    rw [eventsAfter]
    cases d.result with
    | ok a => rfl
    | error reason => rfl
  rw [events_bind, hafter, List.append_nil]

/-! ### Polls -/

/-- What one poll reports, and what is left. -/
def poll : Deferred ε α → List ε × Deferred ε α
  | done a => ([], done a)
  | aborted reason => ([], aborted reason)
  | pending rest => ([], rest)
  | event e rest => (e :: (poll rest).1, (poll rest).2)

/-- What a number of polls report, and what is left. -/
def polls : Nat → Deferred ε α → List ε × Deferred ε α
  | 0, d => ([], d)
  | k + 1, d => (d.poll.1 ++ (polls k d.poll.2).1, (polls k d.poll.2).2)

/-- How often a computation is not ready. -/
def pendings : Deferred ε α → Nat
  | done _ => 0
  | aborted _ => 0
  | pending rest => pendings rest + 1
  | event _ rest => pendings rest

theorem events_poll (d : Deferred ε α) : d.poll.1 ++ d.poll.2.events = d.events := by
  induction d with
  | done a => rfl
  | aborted reason => rfl
  | pending rest => rfl
  | event e rest ih => exact congrArg (e :: ·) ih

theorem result_poll (d : Deferred ε α) : d.poll.2.result = d.result := by
  induction d with
  | done a => rfl
  | aborted reason => rfl
  | pending rest => rfl
  | event e rest ih => exact ih

theorem pendings_poll (d : Deferred ε α) : d.poll.2.pendings = d.pendings - 1 := by
  induction d with
  | done a => rfl
  | aborted reason => rfl
  | pending rest => rfl
  | event e rest ih => exact ih

theorem poll_of_ready {d : Deferred ε α} (h : d.pendings = 0) :
    d.poll.2 = ofExcept d.result := by
  induction d with
  | done a => rfl
  | aborted reason => rfl
  | pending rest => cases h
  | event e rest ih => exact ih h

/-- What is reported so far is the first part of all reports. -/
theorem events_polls (k : Nat) (d : Deferred ε α) :
    (d.polls k).1 ++ (d.polls k).2.events = d.events := by
  induction k generalizing d with
  | zero => rfl
  | succ k ih =>
    show d.poll.1 ++ (polls k d.poll.2).1 ++ (polls k d.poll.2).2.events = _
    rw [List.append_assoc, ih, events_poll]

theorem result_polls (k : Nat) (d : Deferred ε α) : (d.polls k).2.result = d.result := by
  induction k generalizing d with
  | zero => rfl
  | succ k ih => exact (ih d.poll.2).trans (result_poll d)

theorem polls_ofExcept (k : Nat) (r : Except Panic α) :
    ((ofExcept r : Deferred ε α).polls k).2 = ofExcept r := by
  induction k with
  | zero => rfl
  | succ k ih =>
    cases r with
    | ok a => exact ih
    | error reason => exact ih

/-- **A computation comes to its result if it is polled once more than it is not ready**, and stays
there. -/
theorem polls_eq_ofExcept {k : Nat} {d : Deferred ε α} (h : d.pendings < k) :
    (d.polls k).2 = ofExcept d.result := by
  induction k generalizing d with
  | zero => exact absurd h (Nat.not_lt_zero _)
  | succ k ih =>
    show (polls k d.poll.2).2 = _
    by_cases hd : d.pendings = 0
    -- This poll is the last one that does anything.
    · rw [poll_of_ready hd, polls_ofExcept]
    · have hk : d.poll.2.pendings < k := by
        rw [pendings_poll]
        omega
      rw [ih hk, result_poll]

/-! ### Other reports -/

/-- The same computation with other reports; some may be dropped. -/
def filterMapEvents (f : ε → Option ι) : Deferred ε α → Deferred ι α
  | done a => done a
  | aborted reason => aborted reason
  | pending rest => pending (filterMapEvents f rest)
  | event e rest =>
    match f e with
    | some e => event e (filterMapEvents f rest)
    | none => filterMapEvents f rest

@[simp] theorem result_filterMapEvents (f : ε → Option ι) (d : Deferred ε α) :
    (d.filterMapEvents f).result = d.result := by
  induction d with
  | done a => rfl
  | aborted reason => rfl
  | pending rest ih => exact ih
  | event e rest ih =>
    rw [filterMapEvents]
    cases f e with
    | none => exact ih
    | some e => exact ih

@[simp] theorem events_filterMapEvents (f : ε → Option ι) (d : Deferred ε α) :
    (d.filterMapEvents f).events = d.events.filterMap f := by
  induction d with
  | done a => rfl
  | aborted reason => rfl
  | pending rest ih => exact ih
  | event e rest ih =>
    rw [filterMapEvents, events, List.filterMap_cons]
    cases f e with
    | none => exact ih
    | some e => exact congrArg (e :: ·) ih

@[simp] theorem filterMapEvents_bind (f : ε → Option ι) (d : Deferred ε α)
    (g : α → Deferred ε β) :
    (d.bind g).filterMapEvents f = (d.filterMapEvents f).bind fun a => (g a).filterMapEvents f := by
  induction d with
  | done a => rfl
  | aborted reason => rfl
  | pending rest ih => exact congrArg pending ih
  | event e rest ih =>
    rw [bind, filterMapEvents, filterMapEvents]
    cases f e with
    | none => exact ih
    | some e => exact congrArg (event e) ih

theorem poll_filterMapEvents (f : ε → Option ι) (d : Deferred ε α) :
    (d.filterMapEvents f).poll = (d.poll.1.filterMap f, d.poll.2.filterMapEvents f) := by
  induction d with
  | done a => rfl
  | aborted reason => rfl
  | pending rest => rfl
  | event e rest ih =>
    rw [filterMapEvents, poll, List.filterMap_cons]
    cases f e with
    | none => exact ih
    | some e =>
      show (e :: (filterMapEvents f rest).poll.1, (filterMapEvents f rest).poll.2) = _
      rw [ih]

/-- Other reports are made by the same polls. -/
theorem polls_filterMapEvents (f : ε → Option ι) (k : Nat) (d : Deferred ε α) :
    (d.filterMapEvents f).polls k =
      ((d.polls k).1.filterMap f, (d.polls k).2.filterMapEvents f) := by
  induction k generalizing d with
  | zero => rfl
  | succ k ih => rw [polls, poll_filterMapEvents, ih, polls, List.filterMap_append]

/-- Reports that are renamed and then named as before. -/
theorem filterMapEvents_of_leftInverse {f : ε → ι} {g : ι → Option ε} (h : ∀ e, g (f e) = some e)
    (d : Deferred ε α) :
    (d.filterMapEvents fun e => some (f e)).filterMapEvents g = d := by
  induction d with
  | done a => rfl
  | aborted reason => rfl
  | pending rest ih => exact congrArg pending ih
  | event e rest ih =>
    rw [filterMapEvents, filterMapEvents, h]
    exact congrArg (event e) ih

end StructuralMatching.Deferred
