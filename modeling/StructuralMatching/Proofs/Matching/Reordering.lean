/-
Items in another order.

Names are shared by all items of a list, so that what one item binds decides whether a later one is
accepted.  The order of the items makes no difference all the same: patterns and values that change
places together match as before, and what each of the items binds goes with it.

* `Pattern.itemSites?_ofFn_iff` — the sites of a list are the sites of its items;
* `Pattern.reorder_itemSites?` — the sites of the items in another order;
* `Reordered` — two runs over the same items in different orders;
* `ClauseHead.bind?_eq_some_iff_sites` — parameters bind like the items of a list;
* `Pattern.bind?_reordered` — the order of items and of parameters makes no difference.

Design notes: items and their values are families over `Fin n`, which makes a change of their places
the composition with a permutation.  The values have to be steady: in another order the fields of an
instance are read on another occasion.
-/
import Mathlib.Data.Fin.VecNotation
import Mathlib.Data.List.FinRange
import StructuralMatching.Proofs.Clause.Head
import StructuralMatching.Proofs.Matching.Likeness

namespace StructuralMatching

/-! ### The parts of a list -/

namespace Pattern

variable {n : Nat}

/-- The sites of as many values are those of the single ones, one block after the other. -/
theorem itemSites?_ofFn_iff {ps : Fin n → Pattern} {vs : Fin n → Value} {o : Occasion} {i : Nat}
    {sites : List Site} :
    itemSites? o i (List.ofFn ps) (List.ofFn vs) = some sites ↔
      ∃ blocks : Fin n → List Site, (∀ k, (ps k).sites? (o.step (i + k)) (vs k) = some (blocks k)) ∧
        sites = (List.ofFn blocks).flatten := by
  induction n generalizing i sites with
  | zero =>
    simp only [List.ofFn_zero, itemSites?, Option.some.injEq, List.flatten_nil]
    constructor
    · rintro rfl
      exact ⟨fun k => k.elim0, fun k => k.elim0, rfl⟩
    · rintro ⟨_, _, rfl⟩
      rfl
  | succ n ih =>
    rw [List.ofFn_succ, List.ofFn_succ, itemSites?, Option.bind_eq_some_iff]
    simp only [Option.map_eq_some_iff, ih]
    constructor
    · rintro ⟨first, hfirst, _, ⟨blocks, hblocks, rfl⟩, rfl⟩
      refine ⟨Fin.cons first blocks, fun k => ?_, ?_⟩
      · cases k using Fin.cases with
        | zero => exact hfirst
        | succ k =>
          have hstep : i + (k.succ : Nat) = i + 1 + k := by
            rw [Fin.val_succ]
            omega
          rw [hstep]
          exact hblocks k
      · rw [List.ofFn_succ, List.flatten_cons]
        rfl
    · rintro ⟨blocks, hblocks, rfl⟩
      refine ⟨blocks 0, hblocks 0, _, ⟨fun k => blocks k.succ, fun k => ?_, rfl⟩, ?_⟩
      · have hstep : i + (k.succ : Nat) = i + 1 + k := by
          rw [Fin.val_succ]
          omega
        rw [← hstep]
        exact hblocks k.succ
      · rw [List.ofFn_succ, List.flatten_cons]

/-- **The sites of items in another order** are the same blocks in that order.  They are coherent if
those of the first order are. -/
theorem reorder_itemSites? {ps : Fin n → Pattern} {vs : Fin n → Value} (hvs : ∀ k, (vs k).Steady)
    (s : Equiv.Perm (Fin n)) {o : Occasion} (o' : Occasion) {sites : List Site}
    (h : itemSites? o 0 (List.ofFn ps) (List.ofFn vs) = some sites) (hco : Coherent sites) :
    ∃ blocks : Fin n → List Site, (∀ k o, (ps k).sites? o (vs k) = some (blocks k)) ∧
      sites = (List.ofFn blocks).flatten ∧
      itemSites? o' 0 (List.ofFn (ps ∘ s)) (List.ofFn (vs ∘ s)) =
        some (List.ofFn (blocks ∘ s)).flatten ∧
      Coherent (List.ofFn (blocks ∘ s)).flatten := by
  obtain ⟨blocks, hblocks, rfl⟩ := itemSites?_ofFn_iff.mp h
  have hsteady : ∀ k o, (ps k).sites? o (vs k) = some (blocks k) := by
    intro k o
    rw [← hblocks k]
    exact sites?_eq_of_steady (ps k) (.inr (hvs k))
  refine ⟨blocks, hsteady, rfl, ?_, ?_⟩
  · exact itemSites?_ofFn_iff.mpr ⟨blocks ∘ s, fun k => hsteady (s k) _, rfl⟩
  · exact hco.perm (s.ofFn_comp_perm blocks).flatten.symm

end Pattern

/-! ### Parameters -/

namespace ClauseHead

/-- Parameters are made ready like items at the outermost depth. -/
theorem compileParams_eq_ok_iff {ps : List Pattern} {ms : List Matcher} :
    compileParams ps = .ok ms ↔ Pattern.compileItems 1 ps = .ok ms := by
  induction ps generalizing ms with
  | nil => exact Iff.rfl
  | cons p ps ih =>
    rw [Pattern.compileItems_cons_iff, compileParams_cons_eq_ok_iff]
    simp only [ih]
    rfl

/-- Arguments are matched one by one like the items of a list. -/
theorem bindFrom?_eq (o : Occasion) (i : Nat) {ms : List Matcher} {vs : List Value}
    (hlen : vs.length = ms.length) (out : Bindings) :
    bindFrom? o i ms vs out = if (Matcher.attemptItems o i ms vs out).1 = true then
      some (Matcher.attemptItems o i ms vs out).2 else none := by
  induction ms generalizing i vs out with
  | nil =>
    cases vs with
    | nil => rfl
    | cons v vs => cases hlen
  | cons m ms ih =>
    cases vs with
    | nil => cases hlen
    | cons v vs =>
      rw [bindFrom?, Matcher.attemptItems]
      rcases m.attempt (o.step i) v out with ⟨_ | _, mid⟩
      · rfl
      · exact ih (i + 1) (Nat.succ.inj hlen) mid

/-- **Parameters bind like the items of a list.** -/
theorem bind?_eq_some_iff_sites {ps : List Pattern} {h : ClauseHead} (hps : Pattern.OrderedItems ps)
    (hc : compile ps = .ok h) {o : Occasion} {args : List Value} {bs : List Value} :
    h.bind? o args = some bs ↔ ∃ sites, Pattern.itemSites? o 0 ps args = some sites ∧
      Coherent sites ∧ bs = sites.map Site.value := by
  obtain ⟨ms, hms, rfl⟩ := compile_eq_ok_iff.mp hc
  have hitems := compileParams_eq_ok_iff.mp hms
  rw [bind?, arity]
  by_cases hlen : args.length = ms.length
  · have hlenps : args.length = ps.length := hlen.trans (length_compileParams hms)
    have hreal := Pattern.realizes_attemptItems ps hps hitems o 0 args hlenps .empty
    rw [if_pos hlen, bindFrom?_eq o 0 hlen, ← hreal.values_iff, Option.map_eq_some_iff]
    rcases Matcher.attemptItems o 0 ms args .empty with ⟨_ | _, out⟩
    · simp
    · simp only [if_true, Option.some.injEq, exists_eq_left', true_and]
      exact eq_comm
  · rw [if_neg hlen]
    refine iff_of_false (fun h => by cases h) ?_
    rintro ⟨sites, hsites, _⟩
    exact hlen ((Pattern.length_of_itemSites? hsites).trans (length_compileParams hms).symm)

end ClauseHead

/-! ### Another order -/

/-- A second run over the same items in another order: it succeeds if the first one does, and binds
what the single items bind, in its own order. -/
structure Reordered {n : Nat} (ps : Fin n → Pattern) (vs : Fin n → Value) (s : Equiv.Perm (Fin n))
    (r r' : Option (List Value)) : Prop where
  isSome_eq : r'.isSome = r.isSome
  blocks : ∀ bs, r = some bs → ∃ blocks : Fin n → List Value,
    (∀ k, ∃ c, (ps k).compile = .ok c ∧ ∀ o, c.bind? o (vs k) = some (blocks k)) ∧
    bs = (List.ofFn blocks).flatten ∧ r' = some (List.ofFn (blocks ∘ s)).flatten

namespace Pattern

variable {n : Nat}

theorem reordered_of_sites {ps : Fin n → Pattern} {vs : Fin n → Value} (s : Equiv.Perm (Fin n))
    (hps : ∀ k, (ps k).Ordered) (hvs : ∀ k, (vs k).Steady)
    (hc : ∀ k, ∃ c, (ps k).compile = .ok c) (o o' : Occasion) {r r' : Option (List Value)}
    (hr : ∀ bs, r = some bs ↔ ∃ sites, itemSites? o 0 (List.ofFn ps) (List.ofFn vs) = some sites ∧
      Coherent sites ∧ bs = sites.map Site.value)
    (hr' : ∀ bs, r' = some bs ↔ ∃ sites,
      itemSites? o' 0 (List.ofFn (ps ∘ s)) (List.ofFn (vs ∘ s)) = some sites ∧
        Coherent sites ∧ bs = sites.map Site.value) :
    Reordered ps vs s r r' := by
  have hvalues : ∀ blocks : Fin n → List Site, (List.ofFn blocks).flatten.map Site.value =
      (List.ofFn fun k => (blocks k).map Site.value).flatten := by
    intro blocks
    rw [List.map_flatten, List.map_ofFn]
    rfl
  refine ⟨?_, fun bs hbs => ?_⟩
  · rw [Bool.eq_iff_iff, Option.isSome_iff_exists, Option.isSome_iff_exists]
    constructor
    · rintro ⟨bs, hbs⟩
      -- To change places back is to change places again.
      obtain ⟨sites, hsites, hco, _⟩ := (hr' bs).mp hbs
      have hvs' : ∀ k, ((vs ∘ s) k).Steady := fun k => hvs (s k)
      obtain ⟨_, _, _, hback, hcoback⟩ := reorder_itemSites? hvs' s.symm o hsites hco
      have hback' : ∀ {α : Type} (f : Fin n → α), (f ∘ s) ∘ s.symm = f := by
        intro α f
        funext k
        exact congrArg f (s.apply_symm_apply k)
      rw [hback', hback'] at hback
      exact ⟨_, (hr _).mpr ⟨_, hback, hcoback, rfl⟩⟩
    · rintro ⟨bs, hbs⟩
      obtain ⟨sites, hsites, hco, _⟩ := (hr bs).mp hbs
      obtain ⟨_, _, _, hother, hcoother⟩ := reorder_itemSites? hvs s o' hsites hco
      exact ⟨_, (hr' _).mpr ⟨_, hother, hcoother, rfl⟩⟩
  · obtain ⟨sites, hsites, hco, rfl⟩ := (hr bs).mp hbs
    obtain ⟨blocks, hblocks, rfl, hother, hcoother⟩ :=
      reorder_itemSites? hvs s o' hsites hco
    refine ⟨fun k => (blocks k).map Site.value, fun k => ?_, hvalues blocks, ?_⟩
    · obtain ⟨c, hck⟩ := hc k
      have hmem : blocks k ∈ List.ofFn blocks := List.mem_ofFn.mpr ⟨k, rfl⟩
      refine ⟨c, hck, fun o => (bind?_eq_some_iff_sites (hps k) hck).mpr ?_⟩
      exact ⟨blocks k, hblocks k o, hco.sublist (List.sublist_flatten_of_mem hmem), rfl⟩
    · refine (hr' _).mpr ⟨_, hother, hcoother, ?_⟩
      exact (hvalues (blocks ∘ s)).symm

/-- **The order of items makes no difference**, nor does that of parameters: patterns and values
that change places together match as before, and bind the blocks of the single ones in the new
order. -/
theorem bind?_reordered (ps : Fin n → Pattern) (vs : Fin n → Value) (s : Equiv.Perm (Fin n))
    (hps : ∀ k, (ps k).Ordered) (hvs : ∀ k, (vs k).Steady) (o o' : Occasion) :
    (∀ m, (list (List.ofFn ps)).compile = .ok m →
      ∃ m', (list (List.ofFn (ps ∘ s))).compile = .ok m' ∧
        Reordered ps vs s (m.bind? o (.list (List.ofFn vs)))
          (m'.bind? o' (.list (List.ofFn (vs ∘ s))))) ∧
    ∀ h, ClauseHead.compile (List.ofFn ps) = .ok h →
      ∃ h', ClauseHead.compile (List.ofFn (ps ∘ s)) = .ok h' ∧
        Reordered ps vs s (h.bind? o (List.ofFn vs)) (h'.bind? o' (List.ofFn (vs ∘ s))) := by
  have hordered : ∀ qs : Fin n → Pattern, (∀ k, (qs k).Ordered) → OrderedItems (List.ofFn qs) := by
    intro qs hqs
    rw [orderedItems_iff, List.forall_mem_ofFn_iff]
    exact hqs
  have hother : ∀ {d : Nat} {ms : List Matcher}, compileItems d (List.ofFn ps) = .ok ms →
      (∀ k, ∃ c, compileAt d (ps k) = .ok c) ∧
        ∃ ms', compileItems d (List.ofFn (ps ∘ s)) = .ok ms' := by
    intro d ms hms
    have hall := exists_compileItems_iff.mp ⟨ms, hms⟩
    rw [List.forall_mem_ofFn_iff] at hall
    refine ⟨hall, exists_compileItems_iff.mpr ?_⟩
    rw [List.forall_mem_ofFn_iff]
    exact fun k => hall (s k)
  constructor
  · intro m hm
    obtain ⟨hd, ms, hms, rfl⟩ := compileAt_list_iff.mp hm
    obtain ⟨hall, ms', hms'⟩ := hother hms
    have hm' : (list (List.ofFn (ps ∘ s))).compile = .ok (.list ms') :=
      compileAt_list_iff.mpr ⟨hd, ms', hms', rfl⟩
    refine ⟨_, hm', reordered_of_sites s hps hvs (fun k => ?_) o o' (fun bs => ?_) fun bs => ?_⟩
    · obtain ⟨c, hc⟩ := hall k
      exact ⟨c, compileAt_of_le (ps k) (Nat.le_succ 1) hc⟩
    · exact bind?_eq_some_iff_sites (p := list (List.ofFn ps)) (hordered ps hps) hm
    · have hps' := hordered (ps ∘ s) fun k => hps (s k)
      exact bind?_eq_some_iff_sites (p := list (List.ofFn (ps ∘ s))) hps' hm'
  · intro h hh
    obtain ⟨ms, hms, _⟩ := ClauseHead.compile_eq_ok_iff.mp hh
    obtain ⟨hall, ms', hms'⟩ := hother (ClauseHead.compileParams_eq_ok_iff.mp hms)
    have hh' := ClauseHead.compile_eq_ok_iff.mpr
      ⟨ms', ClauseHead.compileParams_eq_ok_iff.mpr hms', rfl⟩
    refine ⟨_, hh', reordered_of_sites s hps hvs hall o o' (fun bs => ?_) fun bs => ?_⟩
    · exact ClauseHead.bind?_eq_some_iff_sites (hordered ps hps) hh
    · exact ClauseHead.bind?_eq_some_iff_sites (hordered (ps ∘ s) fun k => hps (s k)) hh'

/-- A name below a key of an instance and in a capture, in either order. -/
theorem bind?_reordered_swap :
    ∃ (ps : Fin 2 → Pattern) (vs : Fin 2 → Value) (i : Instance Value),
      ps = ![map [("k", var ⟨some "x", none⟩)], capture (var ⟨some "x", none⟩)] ∧
      vs = ![.object i, .int 3] ∧ (∀ k, (ps k).Ordered) ∧ (∀ k, (vs k).Steady) ∧
      ∃ m m', (list (List.ofFn ps)).compile = .ok m ∧
        (list (List.ofFn (ps ∘ Equiv.swap 0 1))).compile = .ok m' ∧
        m.bind? .start (.list (List.ofFn vs)) = some [.int 3, .int 3, .int 3] ∧
        (m'.bind? .start (.list (List.ofFn (vs ∘ Equiv.swap 0 1)))).isSome = true := by
  have hobject :
      (Value.object ⟨.given 0, ⟨"Point"⟩, "Point", fun _ => [("k", .int 3)]⟩).Steady := by
    intro j hj
    cases hj with
    | refl => exact fun o o' => rfl
    | field o he hx =>
      cases List.mem_singleton.mp he
      cases hx
  have hint : (Value.int 3).Steady := by
    intro j hj
    cases hj
  have hps : ∀ k, ((![map [("k", var ⟨some "x", none⟩)], capture (var ⟨some "x", none⟩)] :
      Fin 2 → Pattern) k).Ordered := by
    rw [Fin.forall_fin_two]
    exact ⟨⟨by rw [Fields.Ascending]; decide, trivial, trivial⟩, trivial⟩
  have hvs := (Fin.forall_fin_two (p := fun k => ((![_, .int 3] : Fin 2 → Value) k).Steady)).mpr
    ⟨hobject, hint⟩
  obtain ⟨m', hm', hsame⟩ := (bind?_reordered _ _ (Equiv.swap 0 1) hps hvs .start .start).1 _ rfl
  refine ⟨_, _, _, rfl, rfl, hps, hvs, _, m', rfl, hm', rfl, ?_⟩
  rw [hsame.isSome_eq]
  rfl

end Pattern

end StructuralMatching
