/-
Why a pattern does not compile.

A pattern is a tree, and so is every constant in it.  Listed from top to bottom and from left to
right, a node before the nodes below it, each node can be judged by itself: it may be too deep, or
else an instance in a constant, or segments that have no layout.  The first node with a fault is
what compilation reports, and if there is none, the pattern compiles.

* `PatternNode`, `Value.nodes`, `Pattern.nodes` — the nodes in this order, with their depths;
* `PatternNode.fault?` — what is wrong with a node, if anything is;
* `error?_compileLiteral`, `Pattern.error?_compileAt` — compilation reports the first fault;
* `Pattern.stepwise_nodes` — depths grow by single steps, so a node that is too deep is so by one;
* `Pattern.compile_reports_first_fault` — when a pattern compiles, and what is reported if it does
  not.

Design notes: `Pattern.compileAt` stops at the first error, and `findSome?` at the first fault.  An
attempt that goes on with a second part turns up as `Option.or` on either side, so that the
comparison of the two is an equation for each kind of pattern.
-/
import StructuralMatching.Proofs.Matching.Compilation

namespace StructuralMatching

/-! ### Nodes -/

/-- What there is at a node: a part of a pattern, or a part of a constant in it. -/
inductive Part where
  | pattern (p : Pattern)
  | constant (v : Value)

/-- A node of a pattern. -/
structure PatternNode where
  depth : Nat
  part : Part

namespace Value

mutual

/-- The nodes of a constant whose outermost node has depth `d`. -/
def nodes (d : Nat) : Value → List PatternNode
  | list items => ⟨d, .constant (list items)⟩ :: itemNodes (d + 1) items
  | map entries => ⟨d, .constant (map entries)⟩ :: entryNodes (d + 1) entries
  | v => [⟨d, .constant v⟩]
termination_by structural v => v

def itemNodes (d : Nat) : List Value → List PatternNode
  | [] => []
  | v :: vs => nodes d v ++ itemNodes d vs
termination_by structural vs => vs

def entryNodes (d : Nat) : List (String × Value) → List PatternNode
  | [] => []
  | (_, v) :: entries => nodes d v ++ entryNodes d entries
termination_by structural entries => entries

end

end Value

namespace Pattern

mutual

/-- The nodes of a pattern whose outermost node has depth `d`; entries and fields come in their
order, which is that of the keys.  A constant begins at the node of the pattern that it is; values
to be equal to and defaults of variables have no nodes. -/
def nodes (d : Nat) : Pattern → List PatternNode
  | capture inner => ⟨d, .pattern (capture inner)⟩ :: nodes (d + 1) inner
  | headTail head tail =>
    ⟨d, .pattern (headTail head tail)⟩ :: (nodes (d + 1) head ++ nodes (d + 1) tail)
  | instanceOf tag fields => ⟨d, .pattern (instanceOf tag fields)⟩ :: entryNodes (d + 1) fields
  | literal v => v.nodes d
  | list items => ⟨d, .pattern (list items)⟩ :: itemNodes (d + 1) items
  | map fields => ⟨d, .pattern (map fields)⟩ :: entryNodes (d + 1) fields
  | p => [⟨d, .pattern p⟩]
termination_by structural p => p

def itemNodes (d : Nat) : List Pattern → List PatternNode
  | [] => []
  | p :: ps => nodes d p ++ itemNodes d ps
termination_by structural ps => ps

def entryNodes (d : Nat) : List (String × Pattern) → List PatternNode
  | [] => []
  | (_, p) :: entries => nodes d p ++ entryNodes d entries
termination_by structural entries => entries

end

end Pattern

/-! ### Faults -/

/-- What is wrong with what there is at a node, whatever its depth. -/
def Part.fault? : Part → Option PatternError
  | .constant (.object i) => some (.unsupportedLiteral i.className)
  | .pattern (.bitstring segments) =>
    match layout segments with
    | .ok _ => none
    | .error (index, e) => some (.segment index e)
  | _ => none

/-- What is wrong with a node, its depth before anything else. -/
def PatternNode.fault? (n : PatternNode) : Option PatternError :=
  if n.depth ≤ maxDepth then n.part.fault? else some (.depthExceeded n.depth maxDepth)

/-- The first fault among nodes. -/
def firstFault? (nodes : List PatternNode) : Option PatternError :=
  nodes.findSome? PatternNode.fault?

theorem firstFault?_append (nodes others : List PatternNode) :
    firstFault? (nodes ++ others) = (firstFault? nodes).or (firstFault? others) :=
  List.findSome?_append

/-! ### Errors -/

/-- The error of a computation that fails. -/
def error? {ε α : Type} : Except ε α → Option ε
  | .ok _ => none
  | .error e => some e

theorem error?_eq_some_iff {ε α : Type} {x : Except ε α} {e : ε} :
    error? x = some e ↔ x = .error e := by
  cases x <;> simp [error?]

theorem error?_eq_none_iff {ε α : Type} {x : Except ε α} : error? x = none ↔ ∃ a, x = .ok a := by
  cases x <;> simp [error?]

/-- Of two computations one after the other, the first that fails is the one to report. -/
theorem error?_bind {ε α β : Type} {x : Except ε α} {f : α → Except ε β} {r : Option ε}
    (h : ∀ a, error? (f a) = r) : error? (x >>= f) = (error? x).or r := by
  cases x with
  | error e => rfl
  | ok a => exact h a

theorem error?_bind_pure {ε α β : Type} {x : Except ε α} {f : α → β} :
    error? (x >>= fun a => pure (f a)) = error? x := by
  cases x <;> rfl

theorem error?_checkDepth (d : Nat) : error? (checkDepth d) =
    if d ≤ maxDepth then none else some (.depthExceeded d maxDepth) := by
  rw [checkDepth]
  split <;> rfl

/-- The first fault of a node and others, where the node can only be too deep. -/
theorem firstFault?_cons {d : Nat} {part : Part} (h : part.fault? = none)
    (rest : List PatternNode) :
    firstFault? (⟨d, part⟩ :: rest) = (error? (checkDepth d)).or (firstFault? rest) := by
  have hnode : PatternNode.fault? ⟨d, part⟩ = error? (checkDepth d) := by
    rw [error?_checkDepth, PatternNode.fault?, h]
  rw [firstFault?, List.findSome?_cons, hnode]
  cases error? (checkDepth d) <;> rfl

/-- The fault of a node without others, as an attempt at it after a look at its depth. -/
theorem firstFault?_singleton {d : Nat} {part : Part} {r : Except PatternError Matcher}
    (h : part.fault? = error? r) :
    error? (checkDepth d >>= fun _ => r) = firstFault? [⟨d, part⟩] := by
  rw [error?_bind fun _ => rfl, error?_checkDepth, firstFault?, List.findSome?_cons,
    PatternNode.fault?, h]
  split
  · cases error? r <;> rfl
  · rfl

/-- A node and what is below it: a look at the depth, and then all the rest. -/
theorem error?_below {α : Type} {d : Nat} {part : Part} (hpart : part.fault? = none)
    {x : Except PatternError α} {rest : List PatternNode} (h : error? x = firstFault? rest)
    (f : α → Matcher) :
    error? (checkDepth d >>= fun _ => x >>= fun a => pure (f a)) =
      firstFault? (⟨d, part⟩ :: rest) := by
  rw [firstFault?_cons hpart, ← h]
  exact error?_bind fun _ => error?_bind_pure

/-- One part after another. -/
theorem error?_append {α β γ : Type} {x : Except PatternError α} {y : Except PatternError β}
    {nodes others : List PatternNode} (hx : error? x = firstFault? nodes)
    (hy : error? y = firstFault? others) (f : α → β → γ) :
    error? (x >>= fun a => y >>= fun b => pure (f a b)) = firstFault? (nodes ++ others) := by
  rw [firstFault?_append, ← hx, ← hy]
  exact error?_bind fun _ => error?_bind_pure

/-! ### The first fault is reported -/

mutual

theorem error?_compileLiteral (v : Value) (d : Nat) :
    error? (compileLiteral d v) = firstFault? (v.nodes d) := by
  cases v with
  | list items => exact error?_below rfl (error?_compileLiteralItems items (d + 1)) _
  | map entries => exact error?_below rfl (error?_compileLiteralEntries entries (d + 1)) _
  | _ => exact firstFault?_singleton rfl
termination_by structural v

theorem error?_compileLiteralItems (vs : List Value) (d : Nat) :
    error? (compileLiteralItems d vs) = firstFault? (Value.itemNodes d vs) := by
  cases vs with
  | nil => rfl
  | cons v vs => exact error?_append (error?_compileLiteral v d) (error?_compileLiteralItems vs d) _
termination_by structural vs

theorem error?_compileLiteralEntries (entries : List (String × Value)) (d : Nat) :
    error? (compileLiteralEntries d entries) = firstFault? (Value.entryNodes d entries) := by
  cases entries with
  | nil => rfl
  | cons entry rest =>
    obtain ⟨key, v⟩ := entry
    exact error?_append (error?_compileLiteral v d) (error?_compileLiteralEntries rest d) _
termination_by structural entries

end

/-- A constant looks at its depth once more. -/
theorem error?_checkDepth_or_compileLiteral (d : Nat) (v : Value) :
    (error? (checkDepth d)).or (error? (compileLiteral d v)) = error? (compileLiteral d v) := by
  have hrest : ∃ f, compileLiteral d v = checkDepth d >>= f := by
    cases v <;> exact ⟨_, rfl⟩
  obtain ⟨f, hf⟩ := hrest
  rw [hf]
  cases checkDepth d <;> rfl

namespace Pattern

mutual

-- The induction is on the pattern, from whatever depth.  A node with others below it has no fault
-- of its own but its depth, so the cases differ only in what the parts are.

/-- **Compilation reports the first fault** of the nodes. -/
theorem error?_compileAt (p : Pattern) (d : Nat) :
    error? (compileAt d p) = firstFault? (p.nodes d) := by
  cases p with
  | wildcard | var | startsWith | bound => exact firstFault?_singleton rfl
  | capture inner => exact error?_below rfl (error?_compileAt inner (d + 1)) _
  | headTail head tail =>
    have hhead := error?_compileAt head (d + 1)
    have htail := error?_compileAt tail (d + 1)
    refine Eq.trans ?_ (firstFault?_cons rfl (head.nodes (d + 1) ++ tail.nodes (d + 1))).symm
    rw [← error?_append hhead htail Matcher.headTail]
    exact error?_bind fun _ => rfl
  | instanceOf tag fields => exact error?_below rfl (error?_compileEntries fields (d + 1)) _
  | bitstring segments =>
    refine firstFault?_singleton ?_
    rw [Part.fault?]
    cases layout segments <;> rfl
  | literal v =>
    show error? (compileAt d (literal v)) = firstFault? (v.nodes d)
    rw [← error?_compileLiteral, ← error?_checkDepth_or_compileLiteral]
    exact error?_bind fun _ => rfl
  | list items => exact error?_below rfl (error?_compileItems items (d + 1)) _
  | map fields => exact error?_below rfl (error?_compileEntries fields (d + 1)) _
termination_by structural p

theorem error?_compileItems (ps : List Pattern) (d : Nat) :
    error? (compileItems d ps) = firstFault? (itemNodes d ps) := by
  cases ps with
  | nil => rfl
  | cons p ps => exact error?_append (error?_compileAt p d) (error?_compileItems ps d) _
termination_by structural ps

theorem error?_compileEntries (entries : List (String × Pattern)) (d : Nat) :
    error? (compileEntries d entries) = firstFault? (entryNodes d entries) := by
  cases entries with
  | nil => rfl
  | cons entry rest =>
    obtain ⟨key, p⟩ := entry
    exact error?_append (error?_compileAt p d) (error?_compileEntries rest d) _
termination_by structural entries

end

end Pattern

/-! ### One level at a time -/

/-- Every node has depth `d`, or is deeper by one than some node before it. -/
def Stepwise (d : Nat) (nodes : List PatternNode) : Prop :=
  ∀ before n after, nodes = before ++ n :: after →
    n.depth = d ∨ ∃ m ∈ before, n.depth = m.depth + 1

theorem stepwise_nil (d : Nat) : Stepwise d [] := by
  intro before n after h
  cases before <;> cases h

theorem Stepwise.append {d : Nat} {nodes others : List PatternNode} (h : Stepwise d nodes)
    (h' : Stepwise d others) : Stepwise d (nodes ++ others) := by
  intro before n after heq
  -- The node is among the others, behind some more of them, or among the first nodes.
  rcases List.append_eq_append_iff.mp heq with ⟨more, rfl, hothers⟩ | ⟨more, rfl, hafter⟩
  · refine (h' more n after hothers).imp_right ?_
    rintro ⟨m, hm, hdepth⟩
    exact ⟨m, List.mem_append_right _ hm, hdepth⟩
  · cases more with
    | nil =>
      rcases h' [] n after hafter.symm with hdepth | ⟨m, hm, _⟩
      · exact .inl hdepth
      · cases hm
    | cons m more =>
      cases hafter
      exact h before n more rfl

/-- A node and what is below it. -/
theorem Stepwise.below {d : Nat} {rest : List PatternNode} (h : Stepwise (d + 1) rest)
    (part : Part) : Stepwise d (⟨d, part⟩ :: rest) := by
  intro before n after heq
  cases before with
  | nil =>
    cases heq
    exact .inl rfl
  | cons first before =>
    cases heq
    refine .inr ?_
    rcases h before n after rfl with hdepth | ⟨m, hm, hdepth⟩
    · exact ⟨_, List.mem_cons_self, hdepth⟩
    · exact ⟨m, List.mem_cons_of_mem _ hm, hdepth⟩

theorem stepwise_singleton (d : Nat) (part : Part) : Stepwise d [⟨d, part⟩] :=
  (stepwise_nil (d + 1)).below part

mutual

theorem Value.stepwise_nodes (v : Value) (d : Nat) : Stepwise d (v.nodes d) := by
  cases v with
  | list items => exact (stepwise_itemNodes items (d + 1)).below _
  | map entries => exact (stepwise_entryNodes entries (d + 1)).below _
  | _ => exact stepwise_singleton d _
termination_by structural v

theorem Value.stepwise_itemNodes (vs : List Value) (d : Nat) : Stepwise d (itemNodes d vs) := by
  cases vs with
  | nil => exact stepwise_nil d
  | cons v vs => exact (stepwise_nodes v d).append (stepwise_itemNodes vs d)
termination_by structural vs

theorem Value.stepwise_entryNodes (entries : List (String × Value)) (d : Nat) :
    Stepwise d (entryNodes d entries) := by
  cases entries with
  | nil => exact stepwise_nil d
  | cons entry rest =>
    obtain ⟨key, v⟩ := entry
    exact (stepwise_nodes v d).append (stepwise_entryNodes rest d)
termination_by structural entries

end

namespace Pattern

mutual

theorem stepwise_nodes (p : Pattern) (d : Nat) : Stepwise d (p.nodes d) := by
  cases p with
  | wildcard | var | startsWith | bound | bitstring => exact stepwise_singleton d _
  | capture inner => exact (stepwise_nodes inner (d + 1)).below _
  | headTail head tail =>
    exact ((stepwise_nodes head (d + 1)).append (stepwise_nodes tail (d + 1))).below _
  | instanceOf tag fields => exact (stepwise_entryNodes fields (d + 1)).below _
  | literal v => exact v.stepwise_nodes d
  | list items => exact (stepwise_itemNodes items (d + 1)).below _
  | map fields => exact (stepwise_entryNodes fields (d + 1)).below _
termination_by structural p

theorem stepwise_itemNodes (ps : List Pattern) (d : Nat) : Stepwise d (itemNodes d ps) := by
  cases ps with
  | nil => exact stepwise_nil d
  | cons p ps => exact (stepwise_nodes p d).append (stepwise_itemNodes ps d)
termination_by structural ps

theorem stepwise_entryNodes (entries : List (String × Pattern)) (d : Nat) :
    Stepwise d (entryNodes d entries) := by
  cases entries with
  | nil => exact stepwise_nil d
  | cons entry rest =>
    obtain ⟨key, p⟩ := entry
    exact (stepwise_nodes p d).append (stepwise_entryNodes rest d)
termination_by structural entries

end

end Pattern

/-! ### Nodes without fault -/

theorem Part.fault?_eq_none_iff (part : Part) :
    part.fault? = none ↔ (∀ i, part ≠ .constant (.object i)) ∧
      ∀ segments, part = .pattern (.bitstring segments) →
        ∃ fields, layout segments = .ok fields := by
  cases part with
  | constant v => cases v <;> simp [fault?]
  | pattern p =>
    cases p with
    | bitstring segments =>
      rw [fault?]
      cases hlayout : layout segments <;> simp [hlayout]
    | _ => simp [fault?]

theorem Part.fault?_ne_depthExceeded (part : Part) (depth max : Nat) :
    part.fault? ≠ some (.depthExceeded depth max) := by
  cases part with
  | constant v => cases v <;> simp [fault?]
  | pattern p =>
    cases p with
    | bitstring segments =>
      rw [fault?]
      cases layout segments <;> simp
    | _ => simp [fault?]

theorem PatternNode.fault?_eq_none_iff (n : PatternNode) :
    n.fault? = none ↔ n.depth ≤ maxDepth ∧ n.part.fault? = none := by
  rw [fault?]
  split
  · rename_i hdepth
    exact (and_iff_right hdepth).symm
  · rename_i hdepth
    exact iff_of_false (Option.some_ne_none _) fun h => hdepth h.1

theorem PatternNode.fault?_eq_depthExceeded {n : PatternNode} {depth max : Nat}
    (h : n.fault? = some (.depthExceeded depth max)) :
    maxDepth < n.depth ∧ depth = n.depth ∧ max = maxDepth := by
  rw [fault?] at h
  split at h
  · exact absurd h (n.part.fault?_ne_depthExceeded depth max)
  · rename_i hdepth
    cases h
    exact ⟨Nat.lt_of_not_le hdepth, rfl, rfl⟩

/-- The first node of a list that is too deep is so by one, since it comes after one that is not. -/
theorem Stepwise.depth_of_first {before after : List PatternNode} {n : PatternNode}
    (h : Stepwise 1 (before ++ n :: after)) (hbefore : ∀ b ∈ before, b.fault? = none)
    (hn : maxDepth < n.depth) : n.depth = maxDepth + 1 := by
  rcases h before n after rfl with hdepth | ⟨m, hm, hdepth⟩
  · rw [hdepth] at hn
    exact absurd hn (by decide)
  · have hle := (PatternNode.fault?_eq_none_iff m).mp (hbefore m hm)
    omega

namespace Pattern

theorem compile_eq_error_iff {p : Pattern} {e : PatternError} :
    p.compile = .error e ↔ ∃ before n after, p.nodes 1 = before ++ n :: after ∧
      (∀ b ∈ before, b.fault? = none) ∧ n.fault? = some e := by
  rw [compile, ← error?_eq_some_iff, error?_compileAt, firstFault?, List.findSome?_eq_some_iff]
  simp only [and_comm]

theorem exists_compileAt_iff {p : Pattern} {d : Nat} :
    (∃ m, compileAt d p = .ok m) ↔ ∀ n ∈ p.nodes d, n.fault? = none := by
  rw [← error?_eq_none_iff, error?_compileAt, firstFault?, List.findSome?_eq_none_iff]

theorem exists_compile_iff {p : Pattern} :
    (∃ m, p.compile = .ok m) ↔ ∀ n ∈ p.nodes 1, n.fault? = none := exists_compileAt_iff

/-- **A pattern compiles exactly if no node is too deep, no constant holds an instance and all
segments can be laid out.**  Otherwise the first node with a fault is reported, and if that is its
depth, it is too deep by one. -/
theorem compile_reports_first_fault (p : Pattern) :
    ((∃ m, p.compile = .ok m) ↔
      (∀ n ∈ p.nodes 1, n.depth ≤ maxDepth) ∧
      (∀ n ∈ p.nodes 1, ∀ i, n.part ≠ .constant (.object i)) ∧
      ∀ n ∈ p.nodes 1, ∀ segments, n.part = .pattern (.bitstring segments) →
        ∃ fields, layout segments = .ok fields) ∧
    (∀ e, p.compile = .error e ↔ ∃ before n after, p.nodes 1 = before ++ n :: after ∧
      (∀ b ∈ before, b.fault? = none) ∧ n.fault? = some e) ∧
    ∀ depth max, p.compile = .error (.depthExceeded depth max) → depth = 65 ∧ max = 64 := by
  refine ⟨?_, fun e => compile_eq_error_iff, fun depth max h => ?_⟩
  · rw [exists_compile_iff]
    simp only [PatternNode.fault?_eq_none_iff, Part.fault?_eq_none_iff]
    constructor
    · intro h
      exact ⟨fun n hn => (h n hn).1, fun n hn => (h n hn).2.1, fun n hn => (h n hn).2.2⟩
    · rintro ⟨hdepth, hinstance, hlayout⟩ n hn
      exact ⟨hdepth n hn, hinstance n hn, hlayout n hn⟩
  · obtain ⟨before, n, after, hnodes, hbefore, hn⟩ := compile_eq_error_iff.mp h
    obtain ⟨hdeep, rfl, rfl⟩ := PatternNode.fault?_eq_depthExceeded hn
    have hstep := p.stepwise_nodes 1
    rw [hnodes] at hstep
    exact ⟨hstep.depth_of_first hbefore hdeep, rfl⟩

end Pattern

end StructuralMatching
