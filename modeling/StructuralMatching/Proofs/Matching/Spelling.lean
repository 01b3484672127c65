/-
Two spellings of a list.

The items of a list can be written side by side, or one in front of the other down to the empty
list.  The first spelling asks for the length before anything else, the second one comes upon the
end of the list last of all.

* `Pattern.spellOut` — the second spelling of items;
* `Pattern.exists_compile_list` — the first spelling compiles if the second one does, which is
  nested more deeply;
* `Pattern.sites?_spellOut` — both spellings see the same of a value;
* `Pattern.bind?_spellOut` — both spellings bind the same.

Design notes: bindings that were made before an attempt failed are lost in either way, so the two
spellings are compared by the sites of a value and not by their attempts.  The second one reads the
items on other occasions, so their instances have to answer the same every time.
-/
import StructuralMatching.Proofs.Matching.Likeness

namespace StructuralMatching

theorem Value.steady_list {vs : List Value} (h : ∀ v ∈ vs, v.Steady) : (list vs).Steady := by
  intro i hi
  cases hi with
  | item hv hx => exact h _ hv i hx

namespace Pattern

/-- Items one in front of the other, down to the empty list. -/
def spellOut (ps : List Pattern) : Pattern := ps.foldr headTail (list [])

variable {ps : List Pattern}

theorem ordered_spellOut_iff : (spellOut ps).Ordered ↔ (list ps).Ordered := by
  induction ps with
  | nil => exact Iff.rfl
  | cons p ps ih => exact and_congr_right fun _ => ih

/-! ### Depth -/

/-- Every item is nested one deeper than the one before it, so all of them are allowed at the depth
of the first one. -/
theorem exists_compileItems_of_spellOut {d : Nat} {m : Matcher}
    (h : compileAt d (spellOut ps) = .ok m) : ∃ ms, compileItems (d + 1) ps = .ok ms := by
  induction ps generalizing d m with
  | nil => exact ⟨[], rfl⟩
  | cons p ps ih =>
    obtain ⟨_, first, _, hfirst, hrest, _⟩ := compileAt_headTail_iff.mp h
    obtain ⟨more, hmore⟩ := ih hrest
    have hshallow := compileItems_of_le ps (Nat.le_succ (d + 1)) hmore
    exact ⟨first :: more, compileItems_cons_iff.mpr ⟨first, more, hfirst, hshallow, rfl⟩⟩

/-- **The flat spelling compiles if the nested one does.** -/
theorem exists_compile_list {m : Matcher} (h : (spellOut ps).compile = .ok m) :
    ∃ m', (list ps).compile = .ok m' := by
  obtain ⟨ms, hms⟩ := exists_compileItems_of_spellOut h
  exact ⟨.list ms, compileAt_list_iff.mpr ⟨le_maxDepth_of_compileAt h, ms, hms, rfl⟩⟩

/-! ### Sites -/

/-- What the nested spelling sees of a list is what the items see one by one, whatever the number of
the first of them. -/
theorem sites?_spellOut_list {vs : List Value} (hvs : (Value.list vs).Steady) (o o' : Occasion)
    (i : Nat) : (spellOut ps).sites? o (.list vs) = itemSites? o' i ps vs := by
  induction ps generalizing vs o i with
  | nil => cases vs <;> rfl
  | cons p ps ih =>
    cases vs with
    | nil => rfl
    | cons v vs =>
      have hfirst : p.sites? (o.step 0) v = p.sites? (o'.step i) v :=
        sites?_eq_of_steady p (.inr (hvs.item List.mem_cons_self))
      have htail : (Value.list vs).Steady := hvs.tail
      have hrest := ih htail (o.step 1) (i + 1)
      show ((p.sites? (o.step 0) v).bind fun sites =>
        ((spellOut ps).sites? (o.step 1) (.list vs)).map fun more => sites ++ more) = _
      rw [hfirst, hrest]
      rfl

theorem sites?_spellOut {v : Value} (hv : v.Steady) (o o' : Occasion) :
    (spellOut ps).sites? o v = (list ps).sites? o' v := by
  cases v with
  | list vs => exact sites?_spellOut_list hv o o' 0
  | _ => cases ps <;> rfl

/-! ### Bindings -/

/-- **Both spellings of a list bind the same**, if both compile: they reject the same values, and
names that occur in several items make no difference.  The fields of instances may not change from
one reading to the next. -/
theorem bind?_spellOut {m m' : Matcher} (hps : OrderedItems ps)
    (hlist : (list ps).compile = .ok m) (hspell : (spellOut ps).compile = .ok m') {v : Value}
    (hv : v.Steady) (o o' : Occasion) : m.bind? o v = m'.bind? o' v := by
  have hsites : (spellOut ps).sites? o' v = (list ps).sites? o v := sites?_spellOut hv o' o
  have hspelled := ordered_spellOut_iff.mpr hps
  apply Option.ext
  intro bs
  rw [bind?_eq_some_iff_sites (p := list ps) hps hlist, bind?_eq_some_iff_sites hspelled hspell,
    hsites]

/-- One name in both items, of which the first is a field of an instance.  The nested spelling finds
another value under it in the second list, where the flat one finds a third item. -/
theorem bind?_spellOut_repeated :
    ∃ (i : Instance Value) (ps : List Pattern),
      ps = [map [("k", var ⟨some "x", none⟩)], var ⟨some "x", none⟩] ∧
      ∃ m m', (list ps).compile = .ok m ∧ (spellOut ps).compile = .ok m' ∧
        m.bind? .start (.list [.object i, .int 3]) = some [.int 3, .int 3] ∧
        m'.bind? (Occasion.start.step 1) (.list [.object i, .int 3]) = some [.int 3, .int 3] ∧
        m.bind? .start (.list [.object i, .int 4, .int 3]) =
          m'.bind? .start (.list [.object i, .int 4, .int 3]) := by
  have hobject :
      (Value.object ⟨.given 0, ⟨"Point"⟩, "Point", fun _ => [("k", .int 3)]⟩).Steady := by
    intro j hj
    cases hj with
    | refl => exact fun o o' => rfl
    | field o he hx =>
      cases List.mem_singleton.mp he
      cases hx
  have hint : ∀ n, (Value.int n).Steady := by
    intro n j hj
    cases hj
  have hps : OrderedItems [map [("k", var ⟨some "x", none⟩)], var ⟨some "x", none⟩] :=
    ⟨⟨by rw [Fields.Ascending]; decide, trivial, trivial⟩, trivial, trivial⟩
  refine ⟨⟨.given 0, ⟨"Point"⟩, "Point", fun _ => [("k", .int 3)]⟩, _, rfl, _, _, rfl, rfl, rfl,
    ?_, ?_⟩
  · have hsame := bind?_spellOut hps rfl rfl (v := .list [.object _, .int 3])
      (Value.steady_list (by simpa using ⟨hobject, hint 3⟩)) .start (Occasion.start.step 1)
    exact hsame.symm.trans rfl
  · exact bind?_spellOut hps rfl rfl
      (Value.steady_list (by simpa using ⟨hobject, hint 4, hint 3⟩)) .start .start

end Pattern

end StructuralMatching
