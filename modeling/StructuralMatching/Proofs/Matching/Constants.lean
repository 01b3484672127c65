/-
What a constant accepts.

A constant is compared with a value part by part, while a value to be equal to is compared as a
whole.  The two agree as long as the constant holds neither a map nor a place for no value at all:
a map may have more keys on the other side, and may be an instance there, and no value at all stands
for anything.

* `Value.Below` — a constant says nothing but what holds of a value;
* `Value.accepts_iff_below` — a value has the shape of a constant exactly if the constant is below
  it;
* `Value.beq_of_below` — for some constants nothing is above them but what is equal to them;
* `Value.below_of_beq` — a constant is below what is equal to it;
* `Pattern.literal_accepts_iff_below` — what the pattern of a constant accepts.

Design notes: an instance is above a map by the fields that are read from it, so the relation tells
the occasion of the reading.  Parts of the value are read on steps of this occasion, one for each
part of the constant.
-/
import StructuralMatching.Proofs.Matching.EqualValues
import StructuralMatching.Proofs.Matching.FirstFault

namespace StructuralMatching

namespace Value

/-! ### Constants below values -/

mutual

/-- Everything that a constant says holds of a value: no value at all says nothing, a list tells its
length and its items, a map tells values under some keys of a map or an instance, and all other
constants say that the value is equal to them. -/
inductive Below : Occasion → Value → Value → Prop where
  | undefined {o : Occasion} {w : Value} : Below o undefined w
  | list {o : Occasion} {items others : List Value} (h : BelowItems o 0 items others) :
      Below o (list items) (list others)
  | map {o : Occasion} {entries found : List (String × Value)}
      (h : BelowEntries o 0 entries found) : Below o (map entries) (map found)
  | object {o : Occasion} {entries : List (String × Value)} {i : Instance Value}
      (h : BelowEntries o 0 entries (i.fields o)) : Below o (map entries) (object i)
  | scalar {o : Occasion} {v w : Value} (hv : v.IsScalar) (h : (w == v) = true) : Below o v w

/-- As many values, each below the one at its place; the first of them is the `i`-th step. -/
inductive BelowItems : Occasion → Nat → List Value → List Value → Prop where
  | nil {o : Occasion} {i : Nat} : BelowItems o i [] []
  | cons {o : Occasion} {i : Nat} {v w : Value} {vs ws : List Value} (h : Below (o.step i) v w)
      (hrest : BelowItems o (i + 1) vs ws) : BelowItems o i (v :: vs) (w :: ws)

/-- Under every key there is a value, above the one of the entry. -/
inductive BelowEntries :
    Occasion → Nat → List (String × Value) → List (String × Value) → Prop where
  | nil {o : Occasion} {i : Nat} {found : List (String × Value)} : BelowEntries o i [] found
  | cons {o : Occasion} {i : Nat} {key : String} {v w : Value}
      {entries found : List (String × Value)} (hw : found.lookup key = some w)
      (h : Below (o.step i) v w) (hrest : BelowEntries o (i + 1) entries found) :
      BelowEntries o i ((key, v) :: entries) found

end

theorem belowItems_cons_iff {o : Occasion} {i : Nat} {v w : Value} {vs ws : List Value} :
    BelowItems o i (v :: vs) (w :: ws) ↔ Below (o.step i) v w ∧ BelowItems o (i + 1) vs ws := by
  constructor
  · rintro (_ | ⟨h, hrest⟩)
    exact ⟨h, hrest⟩
  · rintro ⟨h, hrest⟩
    exact .cons h hrest

theorem belowEntries_cons_iff {o : Occasion} {i : Nat} {key : String} {v : Value}
    {entries found : List (String × Value)} :
    BelowEntries o i ((key, v) :: entries) found ↔
      ∃ w, found.lookup key = some w ∧ Below (o.step i) v w ∧
        BelowEntries o (i + 1) entries found := by
  constructor
  · rintro (_ | ⟨hw, h, hrest⟩)
    exact ⟨_, hw, h, hrest⟩
  · rintro ⟨w, hw, h, hrest⟩
    exact .cons hw h hrest

theorem below_scalar_iff {o : Occasion} {v w : Value} (hv : v.IsScalar) :
    Below o v w ↔ (w == v) = true := by
  constructor
  · intro h
    cases h with
    | scalar _ h => exact h
    | undefined | list | map | object => exact hv.elim
  · exact fun h => .scalar hv h

theorem below_list_iff {o : Occasion} {items : List Value} {w : Value} :
    Below o (list items) w ↔ ∃ others, w.asList? = some others ∧ BelowItems o 0 items others := by
  constructor
  · intro h
    cases h with
    | list h => exact ⟨_, rfl, h⟩
    | scalar hscalar => exact hscalar.elim
  · rintro ⟨others, hw, h⟩
    cases w with
    | list _ =>
      cases hw
      exact .list h
    | _ => cases hw

theorem below_map_iff {o : Occasion} {entries : List (String × Value)} {w : Value} :
    Below o (map entries) w ↔
      ∃ found, w.fieldsAt? o = some found ∧ BelowEntries o 0 entries found := by
  constructor
  · intro h
    cases h with
    | map h => exact ⟨_, rfl, h⟩
    | object h => exact ⟨_, rfl, h⟩
    | scalar hscalar => exact hscalar.elim
  · rintro ⟨found, hw, h⟩
    cases w with
    | map _ =>
      cases hw
      exact .map h
    | object _ =>
      cases hw
      exact .object h
    | _ => cases hw

theorem not_below_object {o : Occasion} {i : Instance Value} {w : Value} :
    ¬ Below o (object i) w := by
  intro h
  cases h with
  | scalar hscalar => exact hscalar.elim

mutual

/-- A value has the shape of a constant exactly if the constant is below it. -/
theorem accepts_iff_below (v : Value) (o : Occasion) (w : Value) :
    v.accepts o w = true ↔ Below o v w := by
  cases v with
  | undefined => exact iff_of_true rfl .undefined
  | list items =>
    rw [accepts_list, below_list_iff]
    simp only [Option.any_eq_true, acceptsItems_iff_below items]
  | map entries =>
    rw [accepts_map, below_map_iff]
    simp only [Option.any_eq_true, acceptsEntries_iff_below entries]
  | object i => exact iff_of_false Bool.false_ne_true not_below_object
  | _ => exact (below_scalar_iff (by exact trivial)).symm
termination_by structural v

theorem acceptsItems_iff_below (vs : List Value) (o : Occasion) (i : Nat) (ws : List Value) :
    acceptsItems o i vs ws = true ↔ BelowItems o i vs ws := by
  cases vs with
  | nil =>
    cases ws with
    | nil => exact iff_of_true rfl .nil
    | cons w ws => exact iff_of_false Bool.false_ne_true (by rintro ⟨⟩)
  | cons v vs =>
    cases ws with
    | nil => exact iff_of_false Bool.false_ne_true (by rintro ⟨⟩)
    | cons w ws =>
      rw [acceptsItems, Bool.and_eq_true, accepts_iff_below v, acceptsItems_iff_below vs,
        belowItems_cons_iff]
termination_by structural vs

theorem acceptsEntries_iff_below (entries : List (String × Value)) (o : Occasion) (i : Nat)
    (found : List (String × Value)) :
    acceptsEntries o i entries found = true ↔ BelowEntries o i entries found := by
  cases entries with
  | nil => exact iff_of_true rfl .nil
  | cons entry rest =>
    obtain ⟨key, v⟩ := entry
    rw [acceptsEntries_cons, belowEntries_cons_iff]
    simp only [Option.any_eq_true, Bool.and_eq_true, accepts_iff_below v,
      acceptsEntries_iff_below rest]
termination_by structural entries

end

/-! ### Constants and equal values -/

/-- Neither no value at all nor a map is found in the value. -/
def IsExact (v : Value) : Prop := ¬ Reaches v undefined ∧ ∀ entries, ¬ Reaches v (map entries)

theorem IsExact.item {items : List Value} (h : (list items).IsExact) {w : Value} (hw : w ∈ items) :
    w.IsExact :=
  ⟨fun hw' => h.1 (.item hw hw'), fun entries hw' => h.2 entries (.item hw hw')⟩

theorem beq_of_belowItems {vs ws : List Value} {o : Occasion} {i : Nat}
    (hvs : ∀ v ∈ vs, ∀ o w, Below o v w → (w == v) = true) (h : BelowItems o i vs ws) :
    List.Forall₂ (fun w v => (w == v) = true) ws vs := by
  induction vs generalizing i ws with
  | nil =>
    cases h with
    | nil => exact .nil
  | cons v vs ih =>
    cases h with
    | cons hw hrest =>
      rw [List.forall_mem_cons] at hvs
      exact .cons (hvs.1 _ _ hw) (ih hvs.2 hrest)

/-- Above a constant that leaves nothing open there is only what is equal to it. -/
theorem beq_of_below {v : Value} (hv : v.IsExact) {o : Occasion} {w : Value} (h : Below o v w) :
    (w == v) = true := by
  induction v using inductionOnParts generalizing o w with
  | leaf v hleaf =>
    cases h with
    | undefined => exact absurd (.refl _) hv.1
    | list | map | object => exact hleaf.elim
    | scalar _ h => exact h
  | list items ih =>
    cases h with
    | list h =>
      refine beq_of_equated (.list (beq_of_belowItems (fun x hx o w => ?_) h))
      exact ih x hx (hv.item hx)
    | scalar hscalar => exact hscalar.elim
  | map entries => exact absurd (.refl _) (hv.2 entries)

theorem belowItems_of_forall₂ {vs ws : List Value}
    (h : List.Forall₂ (fun v w => ∀ o, Below o v w) vs ws) (o : Occasion) (i : Nat) :
    BelowItems o i vs ws := by
  induction h generalizing i with
  | nil => exact .nil
  | cons hvw _ ih => exact .cons (hvw _) (ih (i + 1))

theorem belowEntries_of_forall {entries found : List (String × Value)}
    (h : ∀ e ∈ entries, ∃ w, found.lookup e.1 = some w ∧ ∀ o, Below o e.2 w) (o : Occasion)
    (i : Nat) : BelowEntries o i entries found := by
  induction entries generalizing i with
  | nil => exact .nil
  | cons entry rest ih =>
    rw [List.forall_mem_cons] at h
    obtain ⟨⟨w, hw, hbelow⟩, hrest⟩ := h
    exact .cons hw (hbelow _) (ih hrest (i + 1))

end Value

/-- Where keys ascend, every entry is found under its key. -/
theorem Fields.lookup_of_mem {α : Type} {entries : List (String × α)}
    (h : Fields.Ascending entries) {e : String × α} (he : e ∈ entries) :
    entries.lookup e.1 = some e.2 := by
  induction entries with
  | nil => cases he
  | cons first rest ih =>
    obtain ⟨hfirst, hrest⟩ := List.pairwise_cons.mp h
    rcases List.mem_cons.mp he with rfl | he
    · exact List.lookup_cons_self
    · have hne : e.1 ≠ first.1 := by
        intro heq
        have hlt := hfirst e he
        rw [heq] at hlt
        exact String.lt_irrefl _ hlt
      rw [List.lookup_cons, beq_false_of_ne hne]
      exact ih hrest he

namespace Value

theorem orderedItems_iff {vs : List Value} : OrderedItems vs ↔ ∀ v ∈ vs, v.Ordered := by
  induction vs with
  | nil => simp [OrderedItems]
  | cons v vs ih => rw [OrderedItems, ih, List.forall_mem_cons]

theorem orderedEntries_iff {entries : List (String × Value)} :
    OrderedEntries entries ↔ ∀ e ∈ entries, e.2.Ordered := by
  induction entries with
  | nil => simp [OrderedEntries]
  | cons entry rest ih => rw [OrderedEntries, ih, List.forall_mem_cons]

/-- A constant without places for no value at all is below what is equal to it. -/
theorem below_of_beq {v : Value} (hv : v.Ordered) (hfree : v.IsInstanceFree)
    (hdef : ¬ Reaches v undefined) {w : Value} (h : (w == v) = true) (o : Occasion) :
    Below o v w := by
  induction v using inductionOnParts generalizing o w with
  | leaf v hleaf =>
    cases v with
    | undefined => exact absurd (.refl _) hdef
    | list | map => exact hleaf.elim
    | object i => exact absurd (.refl _) (hfree i)
    | _ => exact .scalar trivial h
  | list items ih =>
    have hitems := orderedItems_iff.mp hv
    cases beq_iff_equated.mp h with
    | plain hplain => exact hplain.elim
    | list hall =>
      have hboth := (List.forall₂_and_left items _).mpr ⟨fun x hx => hx, hall.flip⟩
      refine .list (belowItems_of_forall₂ (hboth.imp fun x y hxy o => ?_) o 0)
      exact ih x hxy.1 (hitems x hxy.1) (hfree.item hxy.1) (fun hx => hdef (.item hxy.1 hx)) hxy.2 o
  | map entries ih =>
    have hentries := orderedEntries_iff.mp hv.2
    cases beq_iff_equated.mp h with
    | plain hplain => exact hplain.elim
    | @map found _ hall =>
      refine .map (belowEntries_of_forall (fun e he => ?_) o 0)
      -- The keys are the same on both sides, and no key occurs twice.
      have hlookup := lookup_rel (Q := fun x y => (x == y) = true) hall e.1
      rw [Fields.lookup_of_mem hv.1 he] at hlookup
      generalize hy : found.lookup e.1 = y at hlookup
      cases hlookup with
      | @some y _ hbeq =>
        refine ⟨y, rfl, fun o => ?_⟩
        exact ih e he (hentries e he) (hfree.entry he) (fun hx => hdef (.entry he hx)) hbeq o

/-! ### Nodes of constants -/

mutual

theorem reaches_of_mem_nodes (v : Value) {d : Nat} {n : PatternNode} (hn : n ∈ v.nodes d) :
    ∃ x, n.part = .constant x ∧ Reaches v x := by
  cases v with
  | list items =>
    rcases List.mem_cons.mp hn with rfl | hn
    · exact ⟨_, rfl, .refl _⟩
    · obtain ⟨x, hx, w, hw, hreach⟩ := reaches_of_mem_itemNodes items hn
      exact ⟨x, hx, .item hw hreach⟩
  | map entries =>
    rcases List.mem_cons.mp hn with rfl | hn
    · exact ⟨_, rfl, .refl _⟩
    · obtain ⟨x, hx, e, he, hreach⟩ := reaches_of_mem_entryNodes entries hn
      exact ⟨x, hx, .entry he hreach⟩
  | _ =>
    cases List.mem_singleton.mp hn
    exact ⟨_, rfl, .refl _⟩
termination_by structural v

theorem reaches_of_mem_itemNodes (vs : List Value) {d : Nat} {n : PatternNode}
    (hn : n ∈ itemNodes d vs) : ∃ x, n.part = .constant x ∧ ∃ w ∈ vs, Reaches w x := by
  cases vs with
  | nil => cases hn
  | cons v vs =>
    rcases List.mem_append.mp hn with hn | hn
    · obtain ⟨x, hx, hreach⟩ := reaches_of_mem_nodes v hn
      exact ⟨x, hx, v, List.mem_cons_self, hreach⟩
    · obtain ⟨x, hx, w, hw, hreach⟩ := reaches_of_mem_itemNodes vs hn
      exact ⟨x, hx, w, List.mem_cons_of_mem _ hw, hreach⟩
termination_by structural vs

theorem reaches_of_mem_entryNodes (entries : List (String × Value)) {d : Nat} {n : PatternNode}
    (hn : n ∈ entryNodes d entries) :
    ∃ x, n.part = .constant x ∧ ∃ e ∈ entries, Reaches e.2 x := by
  cases entries with
  | nil => cases hn
  | cons entry rest =>
    obtain ⟨key, v⟩ := entry
    rcases List.mem_append.mp hn with hn | hn
    · obtain ⟨x, hx, hreach⟩ := reaches_of_mem_nodes v hn
      exact ⟨x, hx, (key, v), List.mem_cons_self, hreach⟩
    · obtain ⟨x, hx, e, he, hreach⟩ := reaches_of_mem_entryNodes rest hn
      exact ⟨x, hx, e, List.mem_cons_of_mem _ he, hreach⟩
termination_by structural entries

end

end Value

namespace Pattern

theorem exists_compile_literal {v : Value} (hfree : v.IsInstanceFree)
    (hdepth : ∀ n ∈ v.nodes 1, n.depth ≤ maxDepth) : ∃ m, (literal v).compile = .ok m := by
  refine exists_compile_iff.mpr fun n hn => ?_
  refine (PatternNode.fault?_eq_none_iff n).mpr ⟨hdepth n hn, ?_⟩
  obtain ⟨x, hx, hreach⟩ := Value.reaches_of_mem_nodes v hn
  rw [hx, Part.fault?_eq_none_iff]
  refine ⟨fun i hi => ?_, fun segments hs => nomatch hs⟩
  cases hi
  exact hfree i hreach

/-- **A constant accepts the values that it is below**, and binds nothing.  If nothing is left open
in it, it accepts what a value to be equal to accepts, and unless no value at all is found in it, it
accepts at least that. -/
theorem literal_accepts_iff_below {v : Value} (hv : v.Ordered) (hfree : v.IsInstanceFree)
    (hdepth : ∀ n ∈ v.nodes 1, n.depth ≤ maxDepth) :
    ∃ m, (literal v).compile = .ok m ∧ m.bindingCount = 0 ∧
      (∀ o w out, (m.attempt o w out).2 = out ∧
        ((m.attempt o w out).1 = true ↔ Value.Below o v w)) ∧
      (v.IsExact → ∃ c, (bound v).compile = .ok c ∧ ∀ o o' w, m.accepts o w = c.accepts o' w) ∧
      (¬ v.Reaches .undefined → ∀ o w, (w == v) = true → m.accepts o w = true) := by
  obtain ⟨m, hm⟩ := exists_compile_literal hfree hdepth
  have hattempt : ∀ o w out, m.attempt o w out = (v.accepts o w, out) :=
    attempt_compileLiteral v hv (compileAt_literal_iff.mp hm).2
  have haccepts : ∀ o w, m.accepts o w = v.accepts o w := by
    intro o w
    rw [Matcher.accepts, hattempt]
  refine ⟨m, hm, bindingCount_compileAt (literal v) hm, fun o w out => ?_, fun hexact => ?_,
    fun hdef o w hw => ?_⟩
  · rw [hattempt]
    exact ⟨rfl, Value.accepts_iff_below v o w⟩
  · refine ⟨.equalTo v, compileAt_bound_iff.mpr ⟨by decide, rfl⟩, fun o o' w => ?_⟩
    show m.accepts o w = (w == v)
    rw [haccepts, Bool.eq_iff_iff, Value.accepts_iff_below]
    exact ⟨Value.beq_of_below hexact, fun h => Value.below_of_beq hv hfree hexact.1 h o⟩
  · rw [haccepts, Value.accepts_iff_below]
    exact Value.below_of_beq hv hfree hdef hw o

/-- A map with a place for anything, against an instance with one field more. -/
theorem literal_accepts_iff_below_instance :
    ∃ v : Value, v = .map [("x", .list [.float (.ofMagnitude false 0), .undefined])] ∧
      v.Ordered ∧ v.IsInstanceFree ∧ (∀ n ∈ v.nodes 1, n.depth ≤ maxDepth) ∧
      ∃ i : Instance Value,
        i.fields .start = [("w", .null),
          ("x", .list [.float (.ofMagnitude true 0), .map [("k", .int 1)]])] ∧
        ∃ m, (literal v).compile = .ok m ∧ (m.attempt .start (.object i) .empty).1 = true ∧
          Value.Below .start v (.object i) := by
  have hordered : (Value.map [("x", .list [.float (.ofMagnitude false 0), .undefined])]).Ordered :=
    ⟨List.pairwise_singleton _ _, ⟨trivial, trivial, trivial⟩, trivial⟩
  have hfree : (Value.map [("x",
      .list [.float (.ofMagnitude false 0), .undefined])]).IsInstanceFree := by
    intro i hi
    cases hi with
    | entry he hx =>
      cases List.mem_singleton.mp he
      cases hx with
      | item hw hx =>
        simp only [List.mem_cons, List.not_mem_nil, or_false] at hw
        rcases hw with rfl | rfl <;> cases hx
  have hdepth : ∀ n ∈ (Value.map [("x",
      .list [.float (.ofMagnitude false 0), .undefined])]).nodes 1, n.depth ≤ maxDepth := by decide
  obtain ⟨m, hm, _, hbelow, _⟩ := literal_accepts_iff_below hordered hfree hdepth
  refine ⟨_, rfl, hordered, hfree, hdepth, ⟨.given 0, ⟨"Point"⟩, "Point", fun _ =>
    [("w", .null), ("x", .list [.float (.ofMagnitude true 0), .map [("k", .int 1)]])]⟩, rfl, m, hm,
    ?_⟩
  obtain rfl := Except.ok.inj hm
  exact ⟨by decide, (hbelow _ _ .empty).2.mp (by decide)⟩

end Pattern

end StructuralMatching
