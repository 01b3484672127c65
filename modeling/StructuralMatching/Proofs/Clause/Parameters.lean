/-
The parameters of a clause and the items of a list.

Parameters are made ready and matched by functions of their own.  They come to the same as a list
pattern for the list of arguments, but for the depth: items are one level below their list, and
parameters are outermost.

* `Matcher.attempt_eq_of_steady` — a matcher does the same on every occasion if the fields of
  instances do not change;
* `Pattern.nodes_succ` — the nodes of a pattern one level deeper;
* `Pattern.bare` — a pattern without the defaults of its variables: what patterns have in common
  that differ in them only;
* `Pattern.compileAt_bare` — the matcher of a pattern does not depend on defaults;
* `ClauseHead.bind?_eq_bind?_list` — a head binds what the list pattern binds;
* `ClauseHead.parameters_are_items` — when either compiles, and what has no influence.

Design notes: a head and a list pattern are run on occasions of their own.  If these are the same,
nothing has to be assumed about the arguments.
-/
import StructuralMatching.Proofs.Matching.FirstFault
import StructuralMatching.Proofs.Matching.Reordering
import StructuralMatching.Proofs.Matching.Spelling

namespace StructuralMatching

/-! ### Other occasions -/

theorem Fields.mem_of_lookup {α : Type} {entries : List (String × α)} {key : String} {a : α}
    (h : entries.lookup key = some a) : (key, a) ∈ entries := by
  obtain ⟨before, after, rfl, _⟩ := List.lookup_eq_some_iff.mp h
  exact List.mem_append_right _ List.mem_cons_self

namespace Matcher

mutual

-- The induction is on the matcher.  Below a node the occasions are steps of two that have nothing to
-- do with each other, so both of them are general, and so are the bindings.

/-- **A matcher does the same with a steady value on every occasion.** -/
theorem attempt_eq_of_steady (m : Matcher) {v : Value} (hv : v.Steady) (o o' : Occasion)
    (out : Bindings) : attempt o m v out = attempt o' m v out := by
  cases m with
  | anything | equalTo | startsWith | bytes => rfl
  | var name => cases name <;> rfl
  | capture inner =>
    rw [attempt, attempt, attempt_eq_of_steady inner hv (o.step 0) (o'.step 0)]
  | headTail head tail =>
    cases v with
    | list vs =>
      cases vs with
      | nil => rfl
      | cons first rest =>
        have hfirst := attempt_eq_of_steady head (hv.item List.mem_cons_self) (o.step 0) (o'.step 0)
        have hrest := attempt_eq_of_steady tail hv.tail (o.step 1) (o'.step 1)
        simp only [attempt, hfirst]
        rcases attempt (o'.step 0) head first out with ⟨_ | _, mid⟩
        · rfl
        · exact hrest mid
    | _ => rfl
  | list items =>
    cases v with
    | list vs =>
      have hitems := attemptItems_eq_of_steady items (fun w hw => hv.item hw) o o' 0 out
      exact congrArg (fun r => if vs.length = items.length then r else (false, out)) hitems
    | _ => rfl
  | map entries =>
    cases v with
    | map fields =>
      have hfields := attemptEntries_eq_of_steady entries (fun e he => hv.entry he) o o' 0 out
      exact congrArg (fun r => if entries.length ≤ fields.length then r else (false, out)) hfields
    | object i =>
      have hsame := hv i (.refl _) o o'
      have hfields := attemptEntries_eq_of_steady entries (fun e he => hv.field o he) o o' 0 out
      show (if entries.length ≤ (i.fields o).length then
        attemptEntries o 0 entries (i.fields o) out else (false, out)) =
        (if entries.length ≤ (i.fields o').length then
          attemptEntries o' 0 entries (i.fields o') out else (false, out))
      rw [← hsame, hfields]
    | _ => rfl
  | instanceOf tag entries =>
    cases v with
    | object i =>
      have hsame := hv i (.refl _) o o'
      have hfields := attemptEntries_eq_of_steady entries (fun e he => hv.field o he) o o' 0 out
      show (if i.tag = tag ∧ entries.length ≤ (i.fields o).length then
        attemptEntries o 0 entries (i.fields o) out else (false, out)) =
        (if i.tag = tag ∧ entries.length ≤ (i.fields o').length then
          attemptEntries o' 0 entries (i.fields o') out else (false, out))
      rw [← hsame, hfields]
    | _ => rfl
termination_by structural m

theorem attemptItems_eq_of_steady (ms : List Matcher) {vs : List Value}
    (hvs : ∀ v ∈ vs, v.Steady) (o o' : Occasion) (i : Nat) (out : Bindings) :
    attemptItems o i ms vs out = attemptItems o' i ms vs out := by
  cases ms with
  | nil => rfl
  | cons m ms =>
    cases vs with
    | nil => rfl
    | cons v vs =>
      obtain ⟨hv, hvs⟩ := List.forall_mem_cons.mp hvs
      rw [attemptItems, attemptItems, attempt_eq_of_steady m hv (o.step i) (o'.step i)]
      rcases attempt (o'.step i) m v out with ⟨_ | _, mid⟩
      · rfl
      · exact attemptItems_eq_of_steady ms hvs o o' (i + 1) mid
termination_by structural ms

theorem attemptEntries_eq_of_steady (entries : List (String × Matcher))
    {fields : List (String × Value)} (hfields : ∀ e ∈ fields, e.2.Steady) (o o' : Occasion)
    (i : Nat) (out : Bindings) :
    attemptEntries o i entries fields out = attemptEntries o' i entries fields out := by
  cases entries with
  | nil => rfl
  | cons entry rest =>
    obtain ⟨key, m⟩ := entry
    rw [attemptEntries, attemptEntries]
    cases hkey : fields.lookup key with
    | none => rfl
    | some v =>
      have hv : v.Steady := hfields _ (Fields.mem_of_lookup hkey)
      simp only [attempt_eq_of_steady m hv (o.step i) (o'.step i)]
      rcases attempt (o'.step i) m v out with ⟨_ | _, mid⟩
      · rfl
      · exact attemptEntries_eq_of_steady rest hfields o o' (i + 1) mid
termination_by structural entries

end

theorem bind?_eq_of_steady (m : Matcher) {o o' : Occasion} {v : Value} (h : o = o' ∨ v.Steady) :
    m.bind? o v = m.bind? o' v := by
  rcases h with rfl | hv
  · rfl
  · rw [bind?, bind?, attempt_eq_of_steady m hv o o']

end Matcher

/-! ### One level deeper -/

/-- The node one level deeper. -/
def PatternNode.deeper (n : PatternNode) : PatternNode := ⟨n.depth + 1, n.part⟩

namespace Value

mutual

theorem nodes_succ (v : Value) (d : Nat) : v.nodes (d + 1) = (v.nodes d).map .deeper := by
  cases v with
  | list items => exact congrArg (_ :: ·) (itemNodes_succ items (d + 1))
  | map entries => exact congrArg (_ :: ·) (entryNodes_succ entries (d + 1))
  | _ => rfl
termination_by structural v

theorem itemNodes_succ (vs : List Value) (d : Nat) :
    itemNodes (d + 1) vs = (itemNodes d vs).map .deeper := by
  cases vs with
  | nil => rfl
  | cons v vs =>
    exact (congrArg₂ (· ++ ·) (nodes_succ v d) (itemNodes_succ vs d)).trans List.map_append.symm
termination_by structural vs

theorem entryNodes_succ (entries : List (String × Value)) (d : Nat) :
    entryNodes (d + 1) entries = (entryNodes d entries).map .deeper := by
  cases entries with
  | nil => rfl
  | cons entry rest =>
    obtain ⟨key, v⟩ := entry
    exact (congrArg₂ (· ++ ·) (nodes_succ v d) (entryNodes_succ rest d)).trans List.map_append.symm
termination_by structural entries

end

end Value

namespace Pattern

mutual

/-- **The nodes of a pattern one level deeper.** -/
theorem nodes_succ (p : Pattern) (d : Nat) : p.nodes (d + 1) = (p.nodes d).map .deeper := by
  cases p with
  | wildcard | var | startsWith | bound | bitstring => rfl
  | capture inner => exact congrArg (_ :: ·) (nodes_succ inner (d + 1))
  | headTail head tail =>
    have hparts := congrArg₂ (· ++ ·) (nodes_succ head (d + 1)) (nodes_succ tail (d + 1))
    exact congrArg (_ :: ·) (hparts.trans List.map_append.symm)
  | instanceOf tag fields => exact congrArg (_ :: ·) (entryNodes_succ fields (d + 1))
  | literal v => exact v.nodes_succ d
  | list items => exact congrArg (_ :: ·) (itemNodes_succ items (d + 1))
  | map fields => exact congrArg (_ :: ·) (entryNodes_succ fields (d + 1))
termination_by structural p

theorem itemNodes_succ (ps : List Pattern) (d : Nat) :
    itemNodes (d + 1) ps = (itemNodes d ps).map .deeper := by
  cases ps with
  | nil => rfl
  | cons p ps =>
    exact (congrArg₂ (· ++ ·) (nodes_succ p d) (itemNodes_succ ps d)).trans List.map_append.symm
termination_by structural ps

theorem entryNodes_succ (entries : List (String × Pattern)) (d : Nat) :
    entryNodes (d + 1) entries = (entryNodes d entries).map .deeper := by
  cases entries with
  | nil => rfl
  | cons entry rest =>
    obtain ⟨key, p⟩ := entry
    exact (congrArg₂ (· ++ ·) (nodes_succ p d) (entryNodes_succ rest d)).trans List.map_append.symm
termination_by structural entries

end

/-- All nodes of the pattern are allowed if `bound` is the greatest depth. -/
def FitsWithin (bound : Nat) (p : Pattern) : Prop :=
  ∀ n ∈ p.nodes 1, n.depth ≤ bound ∧ n.part.fault? = none

theorem exists_compile_iff_fitsWithin {p : Pattern} :
    (∃ m, p.compile = .ok m) ↔ p.FitsWithin 64 := by
  rw [exists_compile_iff]
  exact forall₂_congr fun n _ => n.fault?_eq_none_iff

/-- An item of the outermost list has one level less. -/
theorem exists_compileAt_two_iff {p : Pattern} :
    (∃ m, compileAt 2 p = .ok m) ↔ p.FitsWithin 63 := by
  rw [exists_compileAt_iff, nodes_succ, List.forall_mem_map]
  refine forall₂_congr fun n _ => n.deeper.fault?_eq_none_iff.trans ?_
  exact and_congr_left fun _ => Nat.succ_le_succ_iff

theorem exists_compile_list_iff {ps : List Pattern} :
    (∃ m, (list ps).compile = .ok m) ↔ ∀ p ∈ ps, p.FitsWithin 63 := by
  have hitems : (∃ ms, compileItems 2 ps = .ok ms) ↔ ∀ p ∈ ps, p.FitsWithin 63 :=
    exists_compileItems_iff.trans (forall₂_congr fun p _ => exists_compileAt_two_iff)
  rw [← hitems]
  constructor
  · rintro ⟨m, hm⟩
    obtain ⟨_, ms, hms, _⟩ := compileAt_list_iff.mp hm
    exact ⟨ms, hms⟩
  · rintro ⟨ms, hms⟩
    exact ⟨.list ms, compileAt_list_iff.mpr ⟨by decide, ms, hms, rfl⟩⟩

/-- A chain of captures is as deep as it is long. -/
theorem exists_compileAt_captures_iff {k d : Nat} :
    (∃ m, compileAt d (Nat.repeat capture k wildcard) = .ok m) ↔ d + k ≤ maxDepth := by
  induction k generalizing d with
  | zero =>
    constructor
    · rintro ⟨m, hm⟩
      exact le_maxDepth_of_compileAt hm
    · intro hd
      exact ⟨.anything, compileAt_wildcard_iff.mpr ⟨hd, rfl⟩⟩
  | succ k ih =>
    rw [← Nat.add_assoc, Nat.add_right_comm, ← ih]
    constructor
    · rintro ⟨m, hm⟩
      obtain ⟨_, c, hc, _⟩ := compileAt_capture_iff.mp hm
      exact ⟨c, hc⟩
    · rintro ⟨c, hc⟩
      have hd := Nat.le_of_succ_le (le_maxDepth_of_compileAt hc)
      exact ⟨.capture c, compileAt_capture_iff.mpr ⟨hd, c, hc, rfl⟩⟩

/-! ### Defaults -/

mutual

/-- The pattern without the defaults of its variables, wherever they are. -/
def bare : Pattern → Pattern
  | var x => var { x with default := none }
  | capture inner => capture (bare inner)
  | headTail head tail => headTail (bare head) (bare tail)
  | instanceOf tag fields => instanceOf tag (bareEntries fields)
  | list items => list (bareItems items)
  | map fields => map (bareEntries fields)
  | p => p
termination_by structural p => p

def bareItems : List Pattern → List Pattern
  | [] => []
  | p :: ps => bare p :: bareItems ps
termination_by structural ps => ps

def bareEntries : List (String × Pattern) → List (String × Pattern)
  | [] => []
  | (key, p) :: entries => (key, bare p) :: bareEntries entries
termination_by structural entries => entries

end

mutual

-- The two computations are equal, not only their matchers: errors do not depend on defaults either.

/-- **The matcher of a pattern does not depend on the defaults of variables.** -/
theorem compileAt_bare (p : Pattern) (d : Nat) : compileAt d p.bare = compileAt d p := by
  cases p with
  | wildcard | startsWith | bound | bitstring | literal => rfl
  | var x => rfl
  | capture inner =>
    exact congrArg (fun r => checkDepth d >>= fun _ => r >>= fun c => pure (Matcher.capture c))
      (compileAt_bare inner (d + 1))
  | headTail head tail =>
    exact congrArg₂ (fun r r' => checkDepth d >>= fun _ => r >>= fun h => r' >>= fun t =>
      pure (Matcher.headTail h t)) (compileAt_bare head (d + 1)) (compileAt_bare tail (d + 1))
  | instanceOf tag fields =>
    exact congrArg
      (fun r => checkDepth d >>= fun _ => r >>= fun ms => pure (Matcher.instanceOf tag ms))
      (compileEntries_bare fields (d + 1))
  | list items =>
    exact congrArg (fun r => checkDepth d >>= fun _ => r >>= fun ms => pure (Matcher.list ms))
      (compileItems_bare items (d + 1))
  | map fields =>
    exact congrArg (fun r => checkDepth d >>= fun _ => r >>= fun ms => pure (Matcher.map ms))
      (compileEntries_bare fields (d + 1))
termination_by structural p

theorem compileItems_bare (ps : List Pattern) (d : Nat) :
    compileItems d (bareItems ps) = compileItems d ps := by
  cases ps with
  | nil => rfl
  | cons p ps =>
    exact congrArg₂ (fun r r' => r >>= fun m => r' >>= fun ms => pure (m :: ms))
      (compileAt_bare p d) (compileItems_bare ps d)
termination_by structural ps

theorem compileEntries_bare (entries : List (String × Pattern)) (d : Nat) :
    compileEntries d (bareEntries entries) = compileEntries d entries := by
  cases entries with
  | nil => rfl
  | cons entry rest =>
    obtain ⟨key, p⟩ := entry
    exact congrArg₂ (fun r r' => r >>= fun m => r' >>= fun ms => pure ((key, m) :: ms))
      (compileAt_bare p d) (compileEntries_bare rest d)
termination_by structural entries

end

theorem bareItems_eq_map (ps : List Pattern) : bareItems ps = ps.map bare := by
  induction ps with
  | nil => rfl
  | cons p ps ih => exact congrArg (p.bare :: ·) ih

theorem compile_list_map_bare (ps : List Pattern) :
    (list (ps.map bare)).compile = (list ps).compile := by
  rw [← bareItems_eq_map]
  exact compileAt_bare (list ps) 1

end Pattern

namespace ClauseHead

theorem compileParams_map_bare (ps : List Pattern) :
    compileParams (ps.map Pattern.bare) = compileParams ps := by
  induction ps with
  | nil => rfl
  | cons p ps ih =>
    have hfirst : p.bare.compile = p.compile := p.compileAt_bare 1
    rw [List.map_cons, compileParams, compileParams, hfirst, ih]

theorem map_params_compile (ps : List Pattern) :
    (compile ps).map ClauseHead.params = compileParams ps := by
  rw [compile]
  cases compileParams ps <;> rfl

/-! ### Parameters as items -/

theorem exists_compile_iff {ps : List Pattern} :
    (∃ h, compile ps = .ok h) ↔ ∀ p ∈ ps, ∃ m, p.compile = .ok m := by
  refine Iff.trans ?_ Pattern.exists_compileItems_iff
  constructor
  · rintro ⟨h, hh⟩
    obtain ⟨ms, hms, _⟩ := compile_eq_ok_iff.mp hh
    exact ⟨ms, compileParams_eq_ok_iff.mp hms⟩
  · rintro ⟨ms, hms⟩
    exact ⟨_, compile_eq_ok_iff.mpr ⟨ms, compileParams_eq_ok_iff.mpr hms, rfl⟩⟩

/-- If the list pattern compiles, then so do the parameters, to the matchers of its items. -/
theorem compile_of_list {ps : List Pattern} {m : Matcher}
    (hm : (Pattern.list ps).compile = .ok m) :
    ∃ h, compile ps = .ok h ∧ m = .list h.params := by
  obtain ⟨_, ms, hms, rfl⟩ := Pattern.compileAt_list_iff.mp hm
  -- Items begin one level below their list, and compile to the same at the level of the list.
  have hparams := compileParams_eq_ok_iff.mpr (Pattern.compileItems_of_le ps (Nat.le_succ 1) hms)
  exact ⟨_, compile_eq_ok_iff.mpr ⟨ms, hparams, rfl⟩, rfl⟩

/-- **A head binds what the list of its matchers binds**, on the same occasion. -/
theorem bind?_eq_bind?_list (h : ClauseHead) (o : Occasion) (args : List Value) :
    h.bind? o args = (Matcher.list h.params).bind? o (.list args) := by
  have hlist : (Matcher.list h.params).attempt o (.list args) .empty =
      if args.length = h.params.length then Matcher.attemptItems o 0 h.params args .empty
      else (false, .empty) := rfl
  rw [bind?, arity, Matcher.bind?, hlist]
  by_cases hlen : args.length = h.params.length
  · rw [if_pos hlen, if_pos hlen, bindFrom?_eq o 0 hlen]
    rcases Matcher.attemptItems o 0 h.params args .empty with ⟨_ | _, out⟩
    · rfl
    · rfl
  · rw [if_neg hlen, if_neg hlen]

/-- What is bound depends on the matchers only. -/
theorem bind?_congr {h h' : ClauseHead} (hparams : h'.params = h.params) (o : Occasion)
    (args : List Value) : h'.bind? o args = h.bind? o args := by
  rw [bind?_eq_bind?_list, bind?_eq_bind?_list, hparams]

/-- **Parameters are the items of a list pattern.**  If this pattern compiles, then the parameters
compile to a head that binds for a list of arguments what the pattern binds for the list: on one
occasion, and on all of them if the fields of instances do not change.  Parameters compile if each
of them does by itself.  So each of them may be as deep as patterns can be, and an item of a list
less deep by one.  The defaults of variables, wherever they are, have no influence on any of
this. -/
theorem parameters_are_items (ps : List Pattern) :
    (∀ m, (Pattern.list ps).compile = .ok m → ∃ h, compile ps = .ok h ∧
      ∀ o o' args, (o = o' ∨ ∀ v ∈ args, v.Steady) → h.bind? o args = m.bind? o' (.list args)) ∧
    ((∃ h, compile ps = .ok h) ↔ ∀ p ∈ ps, ∃ m, p.compile = .ok m) ∧
    ((∃ h, compile ps = .ok h) ↔ ∀ p ∈ ps, p.FitsWithin 64) ∧
    ((∃ m, (Pattern.list ps).compile = .ok m) ↔ ∀ p ∈ ps, p.FitsWithin 63) ∧
    ∀ qs, qs.map Pattern.bare = ps.map Pattern.bare →
      (Pattern.list qs).compile = (Pattern.list ps).compile ∧
      (compile qs).map ClauseHead.params = (compile ps).map ClauseHead.params ∧
      ∀ h h', compile ps = .ok h → compile qs = .ok h' →
        ∀ o args, h'.bind? o args = h.bind? o args := by
  refine ⟨fun m hm => ?_, exists_compile_iff, ?_, Pattern.exists_compile_list_iff,
    fun qs hqs => ?_⟩
  · obtain ⟨h, hh, rfl⟩ := compile_of_list hm
    refine ⟨h, hh, fun o o' args hargs => (h.bind?_eq_bind?_list o args).trans ?_⟩
    exact Matcher.bind?_eq_of_steady _ (hargs.imp_right Value.steady_list)
  · exact exists_compile_iff.trans
      (forall₂_congr fun p _ => Pattern.exists_compile_iff_fitsWithin)
  · have hparams : (compile qs).map ClauseHead.params = (compile ps).map ClauseHead.params := by
      rw [map_params_compile, map_params_compile, ← compileParams_map_bare, hqs,
        compileParams_map_bare]
    refine ⟨?_, hparams, fun h h' hh hh' => bind?_congr ?_⟩
    · rw [← Pattern.compile_list_map_bare, hqs, Pattern.compile_list_map_bare]
    · rw [hh, hh'] at hparams
      exact Except.ok.inj hparams

/-- A name shared with a field of an instance, other defaults, and a parameter that is too deep for
an item. -/
theorem parameters_are_items_shared :
    ∃ (ps qs : List Pattern) (deep : Pattern) (i : Instance Value),
      ps = [.var ⟨some "x", some (.int 7)⟩, .map [("k", .var ⟨some "x", none⟩)]] ∧
      qs = [.var ⟨some "x", none⟩, .map [("k", .var ⟨some "x", some .null⟩)]] ∧
      deep = Nat.repeat Pattern.capture 63 .wildcard ∧
      ∃ m h h', (Pattern.list ps).compile = .ok m ∧ compile ps = .ok h ∧ compile qs = .ok h' ∧
        m.bind? .start (.list [.int 3, .object i]) = some [.int 3, .int 3] ∧
        h.bind? (Occasion.start.step 1) [.int 3, .object i] = some [.int 3, .int 3] ∧
        h'.bind? (Occasion.start.step 1) [.int 3, .object i] = some [.int 3, .int 3] ∧
        (∃ h, compile [deep] = .ok h) ∧ ¬∃ m, (Pattern.list [deep]).compile = .ok m := by
  have hint : (Value.int 3).Steady := Value.steady_of_isScalar trivial
  have hobject :
      (Value.object ⟨.given 0, ⟨"Point"⟩, "Point", fun _ => [("k", .int 3)]⟩).Steady := by
    refine Value.steady_object (fun _ _ => rfl) fun _ e he => ?_
    rw [List.mem_singleton.mp he]
    exact hint
  obtain ⟨hlist, _, _, _, hbare⟩ := parameters_are_items
    [.var ⟨some "x", some (.int 7)⟩, .map [("k", .var ⟨some "x", none⟩)]]
  obtain ⟨h, hh, hsame⟩ := hlist _ rfl
  obtain ⟨_, _, hdefaults⟩ :=
    hbare [.var ⟨some "x", none⟩, .map [("k", .var ⟨some "x", some .null⟩)]] rfl
  have hbind := hsame (Occasion.start.step 1) .start
    [.int 3, .object ⟨.given 0, ⟨"Point"⟩, "Point", fun _ => [("k", .int 3)]⟩]
    (.inr (by simpa using ⟨hint, hobject⟩))
  have hother := (hdefaults h _ hh rfl (Occasion.start.step 1) _).trans hbind
  refine ⟨_, _, _, ⟨.given 0, ⟨"Point"⟩, "Point", fun _ => [("k", .int 3)]⟩, rfl, rfl, rfl, _, h, _,
    rfl, hh, rfl, rfl, hbind.trans rfl, hother.trans rfl, ?_, ?_⟩
  · rw [exists_compile_iff, List.forall_mem_singleton]
    exact Pattern.exists_compileAt_captures_iff.mpr (by decide)
  · rintro ⟨m, hm⟩
    obtain ⟨_, ms, hms, _⟩ := Pattern.compileAt_list_iff.mp hm
    have hitem := Pattern.exists_compileItems_iff.mp ⟨ms, hms⟩ _ List.mem_cons_self
    exact absurd (Pattern.exists_compileAt_captures_iff.mp hitem) (by decide)

end ClauseHead

end StructuralMatching
