/-
When patterns compile, and to what.

One statement for every kind of pattern: its matcher exists if the depth is allowed and the parts
below have matchers, and it is made of these.  Proofs about compiled patterns use the statements
and never open `Pattern.compileAt` itself.

* `compileLiteral_list_iff`, `compileLiteral_map_iff`, … — constants;
* `Pattern.compileAt_capture_iff`, `Pattern.compileAt_headTail_iff`, … — patterns;
* `Pattern.compileAt_of_le` — a part of a pattern that compiles does so by itself, to the same
  matcher;
* `Pattern.exists_compileItems_iff`, `Pattern.exists_compileEntries_iff` — items, and the patterns
  under keys, compile if each of them does.
-/
import StructuralMatching.Pattern.Compile
import StructuralMatching.Proofs.Segment.Cut

namespace StructuralMatching

theorem checkDepth_eq_ok_iff {d : Nat} : checkDepth d = .ok () ↔ d ≤ maxDepth := by
  rw [checkDepth]
  constructor
  · intro h
    by_contra hd
    rw [if_neg hd] at h
    cases h
  · intro hd
    exact if_pos hd

/-- What is done at an allowed depth. -/
theorem checkDepth_bind_iff {α : Type} {d : Nat} {f : Unit → Except PatternError α} {a : α} :
    (checkDepth d >>= f) = .ok a ↔ d ≤ maxDepth ∧ f () = .ok a := by
  rw [bind_eq_ok_iff]
  constructor
  · rintro ⟨⟨⟩, hd, h⟩
    exact ⟨checkDepth_eq_ok_iff.mp hd, h⟩
  · rintro ⟨hd, h⟩
    exact ⟨(), checkDepth_eq_ok_iff.mpr hd, h⟩

theorem checkDepth_pure_iff {α : Type} {d : Nat} {a b : α} :
    (checkDepth d >>= fun _ => pure a) = .ok b ↔ d ≤ maxDepth ∧ b = a := by
  rw [checkDepth_bind_iff]
  refine and_congr_right fun _ => ?_
  constructor
  · intro h
    cases h
    rfl
  · rintro rfl
    rfl

theorem bind_pure_eq_ok_iff {ε α β : Type} {x : Except ε α} {f : α → β} {b : β} :
    (x >>= fun a => pure (f a)) = .ok b ↔ ∃ a, x = .ok a ∧ b = f a := by
  rw [bind_eq_ok_iff]
  refine exists_congr fun a => and_congr_right fun _ => ?_
  constructor
  · intro h
    cases h
    rfl
  · rintro rfl
    rfl

/-! ### Constants -/

theorem compileLiteral_undefined_iff {d : Nat} {m : Matcher} :
    compileLiteral d .undefined = .ok m ↔ d ≤ maxDepth ∧ m = .anything := by
  exact checkDepth_pure_iff

theorem compileLiteral_list_iff {d : Nat} {items : List Value} {m : Matcher} :
    compileLiteral d (.list items) = .ok m ↔ d ≤ maxDepth ∧
      ∃ ms, compileLiteralItems (d + 1) items = .ok ms ∧ m = .list ms := by
  refine checkDepth_bind_iff.trans ?_
  exact and_congr_right fun _ => bind_pure_eq_ok_iff

theorem compileLiteral_map_iff {d : Nat} {entries : List (String × Value)} {m : Matcher} :
    compileLiteral d (.map entries) = .ok m ↔ d ≤ maxDepth ∧
      ∃ ms, compileLiteralEntries (d + 1) entries = .ok ms ∧ m = .map ms := by
  refine checkDepth_bind_iff.trans ?_
  exact and_congr_right fun _ => bind_pure_eq_ok_iff

/-- Instances are no constants. -/
theorem compileLiteral_object_ne {d : Nat} {i : Instance Value} {m : Matcher} :
    compileLiteral d (.object i) ≠ .ok m := by
  intro h
  obtain ⟨_, h⟩ := checkDepth_bind_iff.mp h
  cases h

/-- A value without parts. -/
def Value.IsScalar : Value → Prop
  | .undefined | .list _ | .map _ | .object _ => False
  | _ => True

theorem compileLiteral_scalar_iff {d : Nat} {v : Value} (hv : v.IsScalar) {m : Matcher} :
    compileLiteral d v = .ok m ↔ d ≤ maxDepth ∧ m = .equalTo v := by
  have heq : compileLiteral d v = checkDepth d >>= fun _ => pure (.equalTo v) := by
    cases v <;> first | exact hv.elim | rfl
  rw [heq, checkDepth_pure_iff]

theorem compileLiteralItems_cons_iff {d : Nat} {v : Value} {vs : List Value} {ms : List Matcher} :
    compileLiteralItems d (v :: vs) = .ok ms ↔
      ∃ m more, compileLiteral d v = .ok m ∧ compileLiteralItems d vs = .ok more ∧
        ms = m :: more := by
  refine bind_eq_ok_iff.trans ?_
  simp only [bind_pure_eq_ok_iff, exists_and_left]

theorem compileLiteralEntries_cons_iff {d : Nat} {key : String} {v : Value}
    {entries : List (String × Value)} {ms : List (String × Matcher)} :
    compileLiteralEntries d ((key, v) :: entries) = .ok ms ↔
      ∃ m more, compileLiteral d v = .ok m ∧ compileLiteralEntries d entries = .ok more ∧
        ms = (key, m) :: more := by
  refine bind_eq_ok_iff.trans ?_
  simp only [bind_pure_eq_ok_iff, exists_and_left]

namespace Pattern

variable {d : Nat} {m : Matcher}

/-! ### Patterns -/

theorem compileAt_wildcard_iff : compileAt d wildcard = .ok m ↔ d ≤ maxDepth ∧ m = .anything := by
  exact checkDepth_pure_iff

theorem compileAt_var_iff {x : Variable} :
    compileAt d (var x) = .ok m ↔ d ≤ maxDepth ∧ m = matcherOfVariable x := by
  exact checkDepth_pure_iff

theorem compileAt_capture_iff {inner : Pattern} :
    compileAt d (capture inner) = .ok m ↔ d ≤ maxDepth ∧
      ∃ c, compileAt (d + 1) inner = .ok c ∧ m = .capture c := by
  refine checkDepth_bind_iff.trans ?_
  exact and_congr_right fun _ => bind_pure_eq_ok_iff

theorem compileAt_startsWith_iff {stem : String} :
    compileAt d (startsWith stem) = .ok m ↔ d ≤ maxDepth ∧ m = .startsWith stem := by
  exact checkDepth_pure_iff

theorem compileAt_headTail_iff {head tail : Pattern} :
    compileAt d (headTail head tail) = .ok m ↔ d ≤ maxDepth ∧
      ∃ h t, compileAt (d + 1) head = .ok h ∧ compileAt (d + 1) tail = .ok t ∧
        m = .headTail h t := by
  refine checkDepth_bind_iff.trans (and_congr_right fun _ => ?_)
  rw [bind_eq_ok_iff]
  simp only [bind_pure_eq_ok_iff, exists_and_left]

theorem compileAt_bound_iff {v : Value} :
    compileAt d (bound v) = .ok m ↔ d ≤ maxDepth ∧ m = .equalTo v := by
  exact checkDepth_pure_iff

theorem compileAt_instanceOf_iff {tag : ClassTag} {fields : List (String × Pattern)} :
    compileAt d (instanceOf tag fields) = .ok m ↔ d ≤ maxDepth ∧
      ∃ ms, compileEntries (d + 1) fields = .ok ms ∧ m = .instanceOf tag ms := by
  refine checkDepth_bind_iff.trans ?_
  exact and_congr_right fun _ => bind_pure_eq_ok_iff

theorem compileAt_bitstring_iff {segments : List Segment} :
    compileAt d (bitstring segments) = .ok m ↔ d ≤ maxDepth ∧
      ∃ fields, layout segments = .ok fields ∧ m = .bytes fields := by
  refine checkDepth_bind_iff.trans (and_congr_right fun _ => ?_)
  cases layout segments with
  | error e =>
    refine iff_of_false (fun h => nomatch h) ?_
    rintro ⟨fields, hf, _⟩
    cases hf
  | ok fields =>
    constructor
    · intro h
      cases h
      exact ⟨fields, rfl, rfl⟩
    · rintro ⟨_, hf, rfl⟩
      cases hf
      rfl

theorem compileAt_literal_iff {v : Value} :
    compileAt d (literal v) = .ok m ↔ d ≤ maxDepth ∧ compileLiteral d v = .ok m := by
  exact checkDepth_bind_iff

theorem compileAt_list_iff {items : List Pattern} :
    compileAt d (list items) = .ok m ↔ d ≤ maxDepth ∧
      ∃ ms, compileItems (d + 1) items = .ok ms ∧ m = .list ms := by
  refine checkDepth_bind_iff.trans ?_
  exact and_congr_right fun _ => bind_pure_eq_ok_iff

theorem compileAt_map_iff {fields : List (String × Pattern)} :
    compileAt d (map fields) = .ok m ↔ d ≤ maxDepth ∧
      ∃ ms, compileEntries (d + 1) fields = .ok ms ∧ m = .map ms := by
  refine checkDepth_bind_iff.trans ?_
  exact and_congr_right fun _ => bind_pure_eq_ok_iff

theorem compileItems_cons_iff {p : Pattern} {ps : List Pattern} {ms : List Matcher} :
    compileItems d (p :: ps) = .ok ms ↔
      ∃ m more, compileAt d p = .ok m ∧ compileItems d ps = .ok more ∧ ms = m :: more := by
  refine bind_eq_ok_iff.trans ?_
  simp only [bind_pure_eq_ok_iff, exists_and_left]

theorem compileEntries_cons_iff {key : String} {p : Pattern} {entries : List (String × Pattern)}
    {ms : List (String × Matcher)} :
    compileEntries d ((key, p) :: entries) = .ok ms ↔
      ∃ m more, compileAt d p = .ok m ∧ compileEntries d entries = .ok more ∧
        ms = (key, m) :: more := by
  refine bind_eq_ok_iff.trans ?_
  simp only [bind_pure_eq_ok_iff, exists_and_left]

theorem exists_compileItems_iff {ps : List Pattern} :
    (∃ ms, compileItems d ps = .ok ms) ↔ ∀ p ∈ ps, ∃ m, compileAt d p = .ok m := by
  induction ps with
  | nil =>
    simp only [List.not_mem_nil, false_implies, implies_true, iff_true]
    exact ⟨[], rfl⟩
  | cons p ps ih =>
    rw [List.forall_mem_cons, ← ih]
    constructor
    · rintro ⟨ms, h⟩
      obtain ⟨m, more, hm, hmore, rfl⟩ := compileItems_cons_iff.mp h
      exact ⟨⟨m, hm⟩, more, hmore⟩
    · rintro ⟨⟨m, hm⟩, more, hmore⟩
      exact ⟨m :: more, compileItems_cons_iff.mpr ⟨m, more, hm, hmore, rfl⟩⟩

theorem exists_compileEntries_iff {entries : List (String × Pattern)} :
    (∃ ms, compileEntries d entries = .ok ms) ↔
      ∀ entry ∈ entries, ∃ m, compileAt d entry.2 = .ok m := by
  induction entries with
  | nil =>
    simp only [List.not_mem_nil, false_implies, implies_true, iff_true]
    exact ⟨[], rfl⟩
  | cons entry rest ih =>
    obtain ⟨key, p⟩ := entry
    rw [List.forall_mem_cons, ← ih]
    constructor
    · rintro ⟨ms, h⟩
      obtain ⟨m, more, hm, hmore, rfl⟩ := compileEntries_cons_iff.mp h
      exact ⟨⟨m, hm⟩, more, hmore⟩
    · rintro ⟨⟨m, hm⟩, more, hmore⟩
      exact ⟨(key, m) :: more, compileEntries_cons_iff.mpr ⟨m, more, hm, hmore, rfl⟩⟩

/-- Nothing compiles at a depth that is not allowed. -/
theorem le_maxDepth_of_compileAt {p : Pattern} (h : compileAt d p = .ok m) : d ≤ maxDepth := by
  cases p <;> exact (checkDepth_bind_iff.mp h).1

end Pattern

/-! ### Less deep -/

mutual

/-- What compiles at a depth compiles at any smaller one, to the same matcher. -/
theorem compileLiteral_of_le (v : Value) {d e : Nat} (hle : e ≤ d) {m : Matcher}
    (h : compileLiteral d v = .ok m) : compileLiteral e v = .ok m := by
  cases v with
  | undefined =>
    obtain ⟨hd, rfl⟩ := compileLiteral_undefined_iff.mp h
    exact compileLiteral_undefined_iff.mpr ⟨Nat.le_trans hle hd, rfl⟩
  | list items =>
    obtain ⟨hd, ms, hms, rfl⟩ := compileLiteral_list_iff.mp h
    have hitems := compileLiteralItems_of_le items (Nat.succ_le_succ hle) hms
    exact compileLiteral_list_iff.mpr ⟨Nat.le_trans hle hd, ms, hitems, rfl⟩
  | map entries =>
    obtain ⟨hd, ms, hms, rfl⟩ := compileLiteral_map_iff.mp h
    have hentries := compileLiteralEntries_of_le entries (Nat.succ_le_succ hle) hms
    exact compileLiteral_map_iff.mpr ⟨Nat.le_trans hle hd, ms, hentries, rfl⟩
  | object i => exact absurd h compileLiteral_object_ne
  | _ =>
    obtain ⟨hd, rfl⟩ := (compileLiteral_scalar_iff (by exact trivial)).mp h
    exact (compileLiteral_scalar_iff (by exact trivial)).mpr ⟨Nat.le_trans hle hd, rfl⟩
termination_by structural v

theorem compileLiteralItems_of_le (vs : List Value) {d e : Nat} (hle : e ≤ d) {ms : List Matcher}
    (h : compileLiteralItems d vs = .ok ms) : compileLiteralItems e vs = .ok ms := by
  cases vs with
  | nil => exact h
  | cons v vs =>
    obtain ⟨m, more, hm, hmore, rfl⟩ := compileLiteralItems_cons_iff.mp h
    have hrest := compileLiteralItems_of_le vs hle hmore
    exact compileLiteralItems_cons_iff.mpr ⟨m, more, compileLiteral_of_le v hle hm, hrest, rfl⟩
termination_by structural vs

theorem compileLiteralEntries_of_le (entries : List (String × Value)) {d e : Nat} (hle : e ≤ d)
    {ms : List (String × Matcher)} (h : compileLiteralEntries d entries = .ok ms) :
    compileLiteralEntries e entries = .ok ms := by
  cases entries with
  | nil => exact h
  | cons entry rest =>
    obtain ⟨key, v⟩ := entry
    obtain ⟨m, more, hm, hmore, rfl⟩ := compileLiteralEntries_cons_iff.mp h
    have hrest := compileLiteralEntries_of_le rest hle hmore
    exact compileLiteralEntries_cons_iff.mpr ⟨m, more, compileLiteral_of_le v hle hm, hrest, rfl⟩
termination_by structural entries

end

namespace Pattern

mutual

/-- What compiles at a depth compiles at any smaller one, to the same matcher. -/
theorem compileAt_of_le (p : Pattern) {d e : Nat} (hle : e ≤ d) {m : Matcher}
    (h : compileAt d p = .ok m) : compileAt e p = .ok m := by
  cases p with
  | wildcard =>
    obtain ⟨hd, rfl⟩ := compileAt_wildcard_iff.mp h
    exact compileAt_wildcard_iff.mpr ⟨Nat.le_trans hle hd, rfl⟩
  | var x =>
    obtain ⟨hd, rfl⟩ := compileAt_var_iff.mp h
    exact compileAt_var_iff.mpr ⟨Nat.le_trans hle hd, rfl⟩
  | capture inner =>
    obtain ⟨hd, c, hc, rfl⟩ := compileAt_capture_iff.mp h
    have hinner := compileAt_of_le inner (Nat.succ_le_succ hle) hc
    exact compileAt_capture_iff.mpr ⟨Nat.le_trans hle hd, c, hinner, rfl⟩
  | startsWith stem =>
    obtain ⟨hd, rfl⟩ := compileAt_startsWith_iff.mp h
    exact compileAt_startsWith_iff.mpr ⟨Nat.le_trans hle hd, rfl⟩
  | headTail head tail =>
    obtain ⟨hd, c, t, hc, ht, rfl⟩ := compileAt_headTail_iff.mp h
    have hhead := compileAt_of_le head (Nat.succ_le_succ hle) hc
    have htail := compileAt_of_le tail (Nat.succ_le_succ hle) ht
    exact compileAt_headTail_iff.mpr ⟨Nat.le_trans hle hd, c, t, hhead, htail, rfl⟩
  | bound v =>
    obtain ⟨hd, rfl⟩ := compileAt_bound_iff.mp h
    exact compileAt_bound_iff.mpr ⟨Nat.le_trans hle hd, rfl⟩
  | instanceOf tag fields =>
    obtain ⟨hd, ms, hms, rfl⟩ := compileAt_instanceOf_iff.mp h
    have hfields := compileEntries_of_le fields (Nat.succ_le_succ hle) hms
    exact compileAt_instanceOf_iff.mpr ⟨Nat.le_trans hle hd, ms, hfields, rfl⟩
  | bitstring segments =>
    obtain ⟨hd, fields, hfields, rfl⟩ := compileAt_bitstring_iff.mp h
    exact compileAt_bitstring_iff.mpr ⟨Nat.le_trans hle hd, fields, hfields, rfl⟩
  | literal v =>
    obtain ⟨hd, hm⟩ := compileAt_literal_iff.mp h
    exact compileAt_literal_iff.mpr ⟨Nat.le_trans hle hd, compileLiteral_of_le v hle hm⟩
  | list items =>
    obtain ⟨hd, ms, hms, rfl⟩ := compileAt_list_iff.mp h
    have hitems := compileItems_of_le items (Nat.succ_le_succ hle) hms
    exact compileAt_list_iff.mpr ⟨Nat.le_trans hle hd, ms, hitems, rfl⟩
  | map fields =>
    obtain ⟨hd, ms, hms, rfl⟩ := compileAt_map_iff.mp h
    have hfields := compileEntries_of_le fields (Nat.succ_le_succ hle) hms
    exact compileAt_map_iff.mpr ⟨Nat.le_trans hle hd, ms, hfields, rfl⟩
termination_by structural p

theorem compileItems_of_le (ps : List Pattern) {d e : Nat} (hle : e ≤ d) {ms : List Matcher}
    (h : compileItems d ps = .ok ms) : compileItems e ps = .ok ms := by
  cases ps with
  | nil => exact h
  | cons p ps =>
    obtain ⟨m, more, hm, hmore, rfl⟩ := compileItems_cons_iff.mp h
    have hrest := compileItems_of_le ps hle hmore
    exact compileItems_cons_iff.mpr ⟨m, more, compileAt_of_le p hle hm, hrest, rfl⟩
termination_by structural ps

theorem compileEntries_of_le (entries : List (String × Pattern)) {d e : Nat} (hle : e ≤ d)
    {ms : List (String × Matcher)} (h : compileEntries d entries = .ok ms) :
    compileEntries e entries = .ok ms := by
  cases entries with
  | nil => exact h
  | cons entry rest =>
    obtain ⟨key, p⟩ := entry
    obtain ⟨m, more, hm, hmore, rfl⟩ := compileEntries_cons_iff.mp h
    have hrest := compileEntries_of_le rest hle hmore
    exact compileEntries_cons_iff.mpr ⟨m, more, compileAt_of_le p hle hm, hrest, rfl⟩
termination_by structural entries

end

end Pattern

end StructuralMatching
