/-
What an attempt does to the bindings it starts from.

An attempt appends values and leaves everything else alone: the values that were there stay where
they are, and so do the places of the names.  How many values it appends is known beforehand.

* `Bindings.Extends` — values were appended, and the names kept their places;
* `Bindings.Contract` — an attempt appended as many values as it should, or not more if it failed;
* `Matcher.contract_attempt` — every attempt of every matcher keeps the contract;
* `Pattern.siteCount` — how many values a match binds, by the pattern alone;
* `Trial.runAll` — attempts one after the other into the same bindings;
* `Trial.contract_runAll` — what becomes of the bindings, whichever of the attempts succeed;
* `Pattern.attempt_contract` — all this for a pattern that compiles.

Design notes: the contract is a matter of matchers, whether or not they come from a pattern.  It
composes along the order of an attempt (`Bindings.Contract.andThen`), so that the proof for a
matcher has one step for each of its parts.
-/
import StructuralMatching.Proofs.Matching.Sites

namespace StructuralMatching

namespace Bindings

/-! ### Bindings that grow -/

/-- The values `added` were appended, and every name keeps its place. -/
structure Extends (before after : Bindings) (added : List Value) : Prop where
  values_eq : after.values = before.values ++ added
  place_eq : ∀ name i, before.names.lookup name = some i → after.names.lookup name = some i

theorem Extends.refl (out : Bindings) : out.Extends out [] :=
  ⟨(List.append_nil _).symm, fun _ _ h => h⟩

theorem Extends.trans {a b c : Bindings} {xs ys : List Value} (hab : a.Extends b xs)
    (hbc : b.Extends c ys) : a.Extends c (xs ++ ys) := by
  refine ⟨?_, fun name i h => hbc.place_eq name i (hab.place_eq name i h)⟩
  rw [hbc.values_eq, hab.values_eq, List.append_assoc]

theorem extends_push (out : Bindings) (v : Value) : out.Extends (out.push v) [v] :=
  ⟨rfl, fun _ _ h => h⟩

theorem extends_pushFirst {out : Bindings} {first : String}
    (hfirst : out.names.lookup first = none) (v : Value) :
    out.Extends (out.pushFirst first v) [v] := by
  refine ⟨rfl, fun name i h => ?_⟩
  show ((first, out.values.length) :: out.names).lookup name = some i
  have hne : name ≠ first := by
    rintro rfl
    rw [hfirst] at h
    cases h
  rw [List.lookup_cons, beq_false_of_ne hne]
  exact h

/-! ### The contract of an attempt -/

/-- An attempt that starts from `out` appended `count` values if it succeeded and at most `count`
values if it failed, and did nothing else. -/
def Contract (out : Bindings) (count : Nat) (r : Bool × Bindings) : Prop :=
  ∃ added, out.Extends r.2 added ∧ (r.1 = true → added.length = count) ∧
    (r.1 = false → added.length ≤ count)

theorem contract_refused (out : Bindings) (count : Nat) : out.Contract count (false, out) :=
  ⟨[], .refl out, fun h => Bool.noConfusion h, fun _ => Nat.zero_le _⟩

theorem contract_tested (out : Bindings) (ok : Bool) : out.Contract 0 (ok, out) :=
  ⟨[], .refl out, fun _ => rfl, fun _ => Nat.le_refl _⟩

theorem contract_push (out : Bindings) (v : Value) : out.Contract 1 (true, out.push v) :=
  ⟨[v], extends_push out v, fun _ => rfl, fun h => Bool.noConfusion h⟩

theorem contract_pushNamed (out : Bindings) (name : String) (v : Value) :
    out.Contract 1 (out.pushNamed name v) := by
  rw [pushNamed]
  cases hl : out.names.lookup name with
  | none => exact ⟨[v], extends_pushFirst hl v, fun _ => rfl, fun h => Bool.noConfusion h⟩
  | some i =>
    show out.Contract 1 (if out.values[i]? == some v then (true, out.push v) else (false, out))
    split
    · exact contract_push out v
    · exact contract_refused out 1

/-- One attempt after the other, if the first succeeds. -/
theorem Contract.andThen {out : Bindings} {m n : Nat} {r : Bool × Bindings}
    {next : Bindings → Bool × Bindings} :
    out.Contract m r → (∀ mid : Bindings, mid.Contract n (next mid)) →
      out.Contract (m + n)
        (match r with
        | (true, mid) => next mid
        | (false, mid) => (false, mid)) := by
  obtain ⟨ok, mid⟩ := r
  rintro ⟨xs, hxs, hyes, hno⟩ hnext
  cases ok with
  | false =>
    have hlen := hno rfl
    exact ⟨xs, hxs, fun h => Bool.noConfusion h, fun _ => by omega⟩
  | true =>
    obtain ⟨ys, hys, hyes', hno'⟩ := hnext mid
    have hlen := hyes rfl
    refine ⟨xs ++ ys, hxs.trans hys, fun h => ?_, fun h => ?_⟩
    · have hlen' := hyes' h
      simp [hlen, hlen']
    · have hlen' := hno' h
      simp only [List.length_append]
      omega

/-- A test before an attempt. -/
theorem Contract.guarded {out : Bindings} {n : Nat} {r : Bool × Bindings} {c : Prop} [Decidable c]
    (h : c → out.Contract n r) : out.Contract n (if c then r else (false, out)) := by
  split
  · rename_i hc
    exact h hc
  · exact contract_refused out n

end Bindings

namespace Field

theorem freeCount_cons (f : Field) (fields : List Field) :
    freeCount (f :: fields) = freeCount [f] + freeCount fields := by
  simp [freeCount, List.countP_cons, Nat.add_comm]

theorem contract_attempt (f : Field) (chunk : List UInt8) (out : Bindings) :
    out.Contract (freeCount [f]) (f.attempt chunk out) := by
  rw [attempt]
  split
  · exact Bindings.contract_refused out _
  · cases hl : f.literal with
    | some expected =>
      have hcount : freeCount [f] = 0 := by simp [freeCount, hl]
      rw [hcount]
      exact Bindings.contract_tested out _
    | none =>
      have hcount : freeCount [f] = 1 := by simp [freeCount, hl]
      rw [hcount]
      cases hd : f.decode? chunk with
      | some v => exact Bindings.contract_push out v
      | none => exact Bindings.contract_refused out _

theorem contract_attemptAll (fields : List Field) (content : List UInt8) (out : Bindings) :
    out.Contract (freeCount fields) (attemptAll fields content out) := by
  induction fields generalizing content out with
  | nil => exact Bindings.contract_tested out _
  | cons f rest ih =>
    rw [freeCount_cons, attemptAll]
    generalize (if rest.isEmpty then content.length else f.span.getD 0) = width
    show out.Contract _ (if content.length < width then (false, out) else _)
    split
    · exact Bindings.contract_refused out _
    · exact (contract_attempt f _ out).andThen fun mid => ih _ mid

end Field

namespace Matcher

mutual

-- The induction is on the matcher, for all bindings that an attempt may start from: what a part
-- starts from is what the parts before it have appended.

/-- Every attempt keeps the contract. -/
theorem contract_attempt (m : Matcher) (o : Occasion) (v : Value) (out : Bindings) :
    out.Contract m.bindingCount (m.attempt o v out) := by
  cases m with
  | anything => exact Bindings.contract_tested out _
  | equalTo expected => exact Bindings.contract_tested out _
  | var name =>
    cases name with
    | none => exact Bindings.contract_push out v
    | some name => exact Bindings.contract_pushNamed out name v
  | startsWith stem =>
    cases v with
    | string s =>
      show out.Contract 1 (match stem.toList.isPrefixOf? s.toList with
        | some rest => (true, out.push (.string (String.ofList rest)))
        | none => (false, out))
      cases stem.toList.isPrefixOf? s.toList with
      | none => exact Bindings.contract_refused out _
      | some rest => exact Bindings.contract_push out _
    | _ => exact Bindings.contract_refused out _
  | capture inner =>
    exact (contract_attempt inner (o.step 0) v out).andThen fun mid =>
      Bindings.contract_push mid v
  | headTail head tail =>
    cases v with
    | list vs =>
      cases vs with
      | nil => exact Bindings.contract_refused out _
      | cons first rest =>
        exact (contract_attempt head (o.step 0) first out).andThen fun mid =>
          contract_attempt tail (o.step 1) (.list rest) mid
    | _ => exact Bindings.contract_refused out _
  | list items =>
    cases v with
    | list vs =>
      exact Bindings.Contract.guarded fun hlen => contract_attemptItems items o 0 vs hlen out
    | _ => exact Bindings.contract_refused out _
  | map entries =>
    cases v with
    | map fields =>
      exact Bindings.Contract.guarded fun _ => contract_attemptEntries entries o 0 fields out
    | object i =>
      exact Bindings.Contract.guarded fun _ => contract_attemptEntries entries o 0 (i.fields o) out
    | _ => exact Bindings.contract_refused out _
  | instanceOf tag entries =>
    cases v with
    | object i =>
      exact Bindings.Contract.guarded fun _ => contract_attemptEntries entries o 0 (i.fields o) out
    | _ => exact Bindings.contract_refused out _
  | bytes layout =>
    show out.Contract (Field.freeCount layout) (match contentOf? v with
      | some content => Field.attemptAll layout content out
      | none => (false, out))
    cases contentOf? v with
    | none => exact Bindings.contract_refused out _
    | some content => exact Field.contract_attemptAll layout content out
termination_by structural m

theorem contract_attemptItems (ms : List Matcher) (o : Occasion) (i : Nat) (vs : List Value)
    (hlen : vs.length = ms.length) (out : Bindings) :
    out.Contract (bindingCountItems ms) (attemptItems o i ms vs out) := by
  cases ms with
  | nil => exact Bindings.contract_tested out true
  | cons m ms =>
    cases vs with
    | nil => cases hlen
    | cons v vs =>
      exact (contract_attempt m (o.step i) v out).andThen fun mid =>
        contract_attemptItems ms o (i + 1) vs (Nat.succ.inj hlen) mid
termination_by structural ms

theorem contract_attemptEntries (entries : List (String × Matcher)) (o : Occasion) (i : Nat)
    (fields : List (String × Value)) (out : Bindings) :
    out.Contract (bindingCountEntries entries) (attemptEntries o i entries fields out) := by
  cases entries with
  | nil => exact Bindings.contract_tested out true
  | cons entry rest =>
    obtain ⟨key, m⟩ := entry
    show out.Contract (m.bindingCount + bindingCountEntries rest)
      (match fields.lookup key with
      | some v =>
        match m.attempt (o.step i) v out with
        | (true, out) => attemptEntries o (i + 1) rest fields out
        | (false, out) => (false, out)
      | none => (false, out))
    cases fields.lookup key with
    | none => exact Bindings.contract_refused out _
    | some v =>
      exact (contract_attempt m (o.step i) v out).andThen fun mid =>
        contract_attemptEntries rest o (i + 1) fields mid
termination_by structural entries

end

theorem bind?_eq_some_iff {m : Matcher} {o : Occasion} {v : Value} {bs : List Value} :
    m.bind? o v = some bs ↔
      (attempt o m v .empty).1 = true ∧ bs = (attempt o m v .empty).2.values := by
  rw [bind?]
  rcases attempt o m v .empty with ⟨ok, out⟩
  cases ok with
  | false => simp
  | true => simp [eq_comm]

theorem length_of_bind? {m : Matcher} {o : Occasion} {v : Value} {bs : List Value}
    (h : m.bind? o v = some bs) : bs.length = m.bindingCount := by
  obtain ⟨hok, rfl⟩ := bind?_eq_some_iff.mp h
  obtain ⟨added, hext, hyes, _⟩ := contract_attempt m o v .empty
  have hvalues : (attempt o m v .empty).2.values = [] ++ added := hext.values_eq
  rw [hvalues, List.nil_append]
  exact hyes hok

end Matcher

/-! ### The count of a pattern -/

namespace Pattern

mutual

/-- How many values a match binds: one for every variable that is not ignored, every capture, every
remainder of a string and every free segment. -/
def siteCount : Pattern → Nat
  | wildcard => 0
  | var x => if x.isIgnored then 0 else 1
  | capture inner => siteCount inner + 1
  | startsWith _ => 1
  | headTail head tail => siteCount head + siteCount tail
  | bound _ => 0
  | instanceOf _ fields => siteCountEntries fields
  | bitstring segments => segments.countP fun s => s.literal.isNone
  | literal _ => 0
  | list items => siteCountItems items
  | map fields => siteCountEntries fields
termination_by structural p => p

def siteCountItems : List Pattern → Nat
  | [] => 0
  | p :: ps => siteCount p + siteCountItems ps
termination_by structural ps => ps

def siteCountEntries : List (String × Pattern) → Nat
  | [] => 0
  | (_, p) :: entries => siteCount p + siteCountEntries entries
termination_by structural entries => entries

end

end Pattern

mutual

theorem bindingCount_compileLiteral (w : Value) {d : Nat} {m : Matcher}
    (h : compileLiteral d w = .ok m) : m.bindingCount = 0 := by
  cases w with
  | undefined =>
    obtain ⟨_, rfl⟩ := compileLiteral_undefined_iff.mp h
    rfl
  | list items =>
    obtain ⟨_, ms, hms, rfl⟩ := compileLiteral_list_iff.mp h
    exact bindingCountItems_compileLiteral items hms
  | map entries =>
    obtain ⟨_, ms, hms, rfl⟩ := compileLiteral_map_iff.mp h
    exact bindingCountEntries_compileLiteral entries hms
  | object i => exact absurd h compileLiteral_object_ne
  | _ =>
    obtain ⟨_, rfl⟩ := (compileLiteral_scalar_iff (by exact trivial)).mp h
    rfl
termination_by structural w

theorem bindingCountItems_compileLiteral (ws : List Value) {d : Nat} {ms : List Matcher}
    (h : compileLiteralItems d ws = .ok ms) : Matcher.bindingCountItems ms = 0 := by
  cases ws with
  | nil => cases h; rfl
  | cons w ws =>
    obtain ⟨m, more, hm, hmore, rfl⟩ := compileLiteralItems_cons_iff.mp h
    have hfirst := bindingCount_compileLiteral w hm
    have hrest := bindingCountItems_compileLiteral ws hmore
    show m.bindingCount + Matcher.bindingCountItems more = 0
    omega
termination_by structural ws

theorem bindingCountEntries_compileLiteral (entries : List (String × Value)) {d : Nat}
    {ms : List (String × Matcher)} (h : compileLiteralEntries d entries = .ok ms) :
    Matcher.bindingCountEntries ms = 0 := by
  cases entries with
  | nil => cases h; rfl
  | cons entry rest =>
    obtain ⟨key, w⟩ := entry
    obtain ⟨m, more, hm, hmore, rfl⟩ := compileLiteralEntries_cons_iff.mp h
    have hfirst := bindingCount_compileLiteral w hm
    have hrest := bindingCountEntries_compileLiteral rest hmore
    show m.bindingCount + Matcher.bindingCountEntries more = 0
    omega
termination_by structural entries

end

theorem freeCount_layoutFrom {i : Nat} {segments : List Segment} {fields : List Field}
    (h : layoutFrom i segments = .ok fields) :
    Field.freeCount fields = segments.countP fun s => s.literal.isNone := by
  induction segments generalizing i fields with
  | nil => cases h; rfl
  | cons s rest ih =>
    obtain ⟨f, more, hf, hmore, rfl⟩ := Segment.layoutFrom_cons h
    have hliteral : f.literal.isNone = s.literal.isNone := by
      cases hs : s.literal with
      | none => rw [(Segment.field_of_free hs hf).1]; rfl
      | some value =>
        obtain ⟨content, _, rfl, _⟩ := Segment.field_of_literal hs hf
        rfl
    rw [Field.freeCount, List.countP_cons, List.countP_cons, hliteral, ← ih hmore]
    rfl

namespace Pattern

mutual

/-- The matcher of a pattern binds as many values as the pattern says, at whatever depth it was
compiled. -/
theorem bindingCount_compileAt (p : Pattern) {d : Nat} {m : Matcher} (h : compileAt d p = .ok m) :
    m.bindingCount = p.siteCount := by
  cases p with
  | wildcard =>
    obtain ⟨_, rfl⟩ := compileAt_wildcard_iff.mp h
    rfl
  | var x =>
    obtain ⟨_, rfl⟩ := compileAt_var_iff.mp h
    show (matcherOfVariable x).bindingCount = if x.isIgnored then 0 else 1
    rw [matcherOfVariable]
    split <;> rfl
  | capture inner =>
    obtain ⟨_, c, hc, rfl⟩ := compileAt_capture_iff.mp h
    exact congrArg (· + 1) (bindingCount_compileAt inner hc)
  | startsWith stem =>
    obtain ⟨_, rfl⟩ := compileAt_startsWith_iff.mp h
    rfl
  | headTail head tail =>
    obtain ⟨_, c, t, hc, ht, rfl⟩ := compileAt_headTail_iff.mp h
    have hhead := bindingCount_compileAt head hc
    have htail := bindingCount_compileAt tail ht
    show c.bindingCount + t.bindingCount = head.siteCount + tail.siteCount
    omega
  | bound w =>
    obtain ⟨_, rfl⟩ := compileAt_bound_iff.mp h
    rfl
  | instanceOf tag fields =>
    obtain ⟨_, ms, hms, rfl⟩ := compileAt_instanceOf_iff.mp h
    exact bindingCountEntries_compileEntries fields hms
  | bitstring segments =>
    obtain ⟨_, fields, hfields, rfl⟩ := compileAt_bitstring_iff.mp h
    exact freeCount_layoutFrom hfields
  | literal w =>
    obtain ⟨_, hm⟩ := compileAt_literal_iff.mp h
    exact bindingCount_compileLiteral w hm
  | list items =>
    obtain ⟨_, ms, hms, rfl⟩ := compileAt_list_iff.mp h
    exact bindingCountItems_compileItems items hms
  | map fields =>
    obtain ⟨_, ms, hms, rfl⟩ := compileAt_map_iff.mp h
    exact bindingCountEntries_compileEntries fields hms
termination_by structural p

theorem bindingCountItems_compileItems (ps : List Pattern) {d : Nat} {ms : List Matcher}
    (h : compileItems d ps = .ok ms) : Matcher.bindingCountItems ms = siteCountItems ps := by
  cases ps with
  | nil => cases h; rfl
  | cons p ps =>
    obtain ⟨m, more, hm, hmore, rfl⟩ := compileItems_cons_iff.mp h
    have hfirst := bindingCount_compileAt p hm
    have hrest := bindingCountItems_compileItems ps hmore
    show m.bindingCount + Matcher.bindingCountItems more = p.siteCount + siteCountItems ps
    omega
termination_by structural ps

theorem bindingCountEntries_compileEntries (entries : List (String × Pattern)) {d : Nat}
    {ms : List (String × Matcher)} (h : compileEntries d entries = .ok ms) :
    Matcher.bindingCountEntries ms = siteCountEntries entries := by
  cases entries with
  | nil => cases h; rfl
  | cons entry rest =>
    obtain ⟨key, p⟩ := entry
    obtain ⟨m, more, hm, hmore, rfl⟩ := compileEntries_cons_iff.mp h
    have hfirst := bindingCount_compileAt p hm
    have hrest := bindingCountEntries_compileEntries rest hmore
    show m.bindingCount + Matcher.bindingCountEntries more = p.siteCount + siteCountEntries rest
    omega
termination_by structural entries

end

end Pattern

/-! ### Attempts into the same bindings -/

/-- A value to be matched against a pattern that compiles. -/
structure Trial where
  pattern : Pattern
  matcher : Matcher
  compiled : pattern.compile = .ok matcher
  occasion : Occasion
  value : Value

namespace Trial

/-- Attempts one after the other, each from the bindings that the one before it left behind,
whether that succeeded or not. -/
def runAll : List Trial → Bindings → List Bool × Bindings
  | [], out => ([], out)
  | t :: ts, out =>
    let (ok, mid) := t.matcher.attempt t.occasion t.value out
    let (oks, last) := runAll ts mid
    (ok :: oks, last)

/-- What a single attempt of a run appended, with whether it succeeded. -/
def Appended (t : Trial) (r : Bool × List Value) : Prop :=
  (r.1 = true → r.2.length = t.pattern.siteCount) ∧
    (r.1 = false → r.2.length ≤ t.pattern.siteCount)

/-- Every attempt of a run appends a block of values of its own. -/
theorem contract_runAll (ts : List Trial) (out : Bindings) :
    ∃ blocks : List (Bool × List Value), (runAll ts out).1 = blocks.map Prod.fst ∧
      out.Extends (runAll ts out).2 (blocks.map Prod.snd).flatten ∧
      List.Forall₂ Appended ts blocks := by
  induction ts generalizing out with
  | nil => exact ⟨[], rfl, .refl out, .nil⟩
  | cons t ts ih =>
    have ht := Matcher.contract_attempt t.matcher t.occasion t.value out
    rw [Pattern.bindingCount_compileAt t.pattern t.compiled] at ht
    obtain ⟨added, hext, hyes, hno⟩ := ht
    obtain ⟨blocks, hoks, hrest, hall⟩ := ih (t.matcher.attempt t.occasion t.value out).2
    refine ⟨((t.matcher.attempt t.occasion t.value out).1, added) :: blocks, ?_, ?_, ?_⟩
    · rw [List.map_cons, ← hoks]
      rfl
    · rw [List.map_cons, List.flatten_cons]
      exact hext.trans hrest
    · exact .cons ⟨hyes, hno⟩ hall

end Trial

namespace Pattern

/-- **Attempts append a number of values that the pattern tells**, and at most so many if they
fail; the values and the names that were there before stay as they are.  The same holds of attempts
one after the other. -/
theorem attempt_contract {p : Pattern} {m : Matcher} (h : p.compile = .ok m) :
    m.bindingCount = p.siteCount ∧
    (∀ (o : Occasion) (v : Value) (out : Bindings),
      out.values <+: (m.attempt o v out).2.values ∧
      (∀ name i, out.names.lookup name = some i →
        (m.attempt o v out).2.names.lookup name = some i) ∧
      ((m.attempt o v out).1 = true →
        (m.attempt o v out).2.values.length = out.values.length + m.bindingCount) ∧
      ((m.attempt o v out).1 = false →
        (m.attempt o v out).2.values.length ≤ out.values.length + m.bindingCount)) ∧
    (∀ (o o' : Occasion) (v w : Value) (bs cs : List Value), m.bind? o v = some bs →
      m.bind? o' w = some cs → bs.length = cs.length) ∧
    ∀ (ts : List Trial) (out : Bindings), ∃ blocks : List (Bool × List Value),
      (Trial.runAll ts out).1 = blocks.map Prod.fst ∧
      out.Extends (Trial.runAll ts out).2 (blocks.map Prod.snd).flatten ∧
      List.Forall₂ Trial.Appended ts blocks := by
  refine ⟨bindingCount_compileAt p h, fun o v out => ?_, fun o o' v w bs cs hbs hcs => ?_,
    Trial.contract_runAll⟩
  · obtain ⟨added, hext, hyes, hno⟩ := Matcher.contract_attempt m o v out
    have hlen : (m.attempt o v out).2.values.length = out.values.length + added.length := by
      rw [hext.values_eq, List.length_append]
    refine ⟨⟨added, hext.values_eq.symm⟩, hext.place_eq, fun hok => ?_, fun hok => ?_⟩
    · rw [hlen, hyes hok]
    · have hle := hno hok
      omega
  · rw [Matcher.length_of_bind? hbs, Matcher.length_of_bind? hcs]

/-- A name that meets two values: the attempt fails when two of four values are bound. -/
theorem attempt_contract_conflict :
    ∃ p : Pattern, p = list [var ⟨some "x", none⟩, bitstring [⟨none, .integer, none, none, []⟩],
        capture (var ⟨some "x", none⟩)] ∧
      ∃ m, p.compile = .ok m ∧ m.bindingCount = 4 ∧
        (m.attempt .start (.list [.int 1, .bytes [7], .int 2]) .empty).1 = false ∧
        (m.attempt .start (.list [.int 1, .bytes [7], .int 2]) .empty).2.values.length ≤ 4 := by
  refine ⟨_, rfl, _, rfl, rfl, rfl, ?_⟩
  have h := attempt_contract (p := list [var ⟨some "x", none⟩,
    bitstring [⟨none, .integer, none, none, []⟩], capture (var ⟨some "x", none⟩)]) rfl
  exact (h.2.1 .start _ .empty).2.2.2 rfl

end Pattern

end StructuralMatching
