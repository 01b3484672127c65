/-
Names without an order.

Sites are bound one after the other, and each is compared only with the first one under its name.
Since equality of values is symmetric and transitive, this comes to the same as comparing every site
with every other one, and what is said of all pairs does not depend on an order.

* `Site.Agree` — two sites under one name have equal values;
* `Coherent` — any two of several sites agree;
* `Bindings.reconciles_empty_iff` — where no name is known before, sites are reconciled exactly if
  they are coherent;
* `Coherent.perm`, `Coherent.sublist`, `Coherent.of_alike` — other sites that are coherent then;
* `Pattern.bind?_eq_some_iff_sites` — what a match binds, told without any bindings.

Design notes: a site is never compared with itself.  A not-a-number under a name that occurs once
does no harm, so that coherence is a matter of pairs and not of members.
-/
import Mathlib.Data.List.Induction
import Mathlib.Data.List.Pairwise
import StructuralMatching.Proofs.Matching.Contract
import StructuralMatching.Proofs.Value.Equality

namespace StructuralMatching

namespace Site

/-- Under one name there are equal values. -/
def Agree (s t : Site) : Prop :=
  ∀ name, s.name = some name → t.name = some name → (s.value == t.value) = true

theorem Agree.symm {s t : Site} (h : s.Agree t) : t.Agree s :=
  fun name ht hs => Value.beq_symm (h name hs ht)

instance : Std.Symm Agree := ⟨fun _ _ => Agree.symm⟩

end Site

/-- Any two of the sites agree. -/
def Coherent (sites : List Site) : Prop := sites.Pairwise Site.Agree

/-- The same by positions, whichever of the two comes first. -/
theorem coherent_iff_getElem? {sites : List Site} :
    Coherent sites ↔ ∀ (i j : Nat) (s t : Site), i ≠ j → sites[i]? = some s → sites[j]? = some t →
      s.Agree t := by
  rw [Coherent, List.pairwise_iff_getElem]
  constructor
  · intro h i j s t hne hs ht
    obtain ⟨hi, rfl⟩ := List.getElem?_eq_some_iff.mp hs
    obtain ⟨hj, rfl⟩ := List.getElem?_eq_some_iff.mp ht
    rcases Nat.lt_or_gt_of_ne hne with hlt | hgt
    · exact h i j hi hj hlt
    · exact (h j i hj hi hgt).symm
  · intro h i j hi hj hlt
    exact h i j _ _ (Nat.ne_of_lt hlt) (List.getElem?_eq_getElem hi) (List.getElem?_eq_getElem hj)

theorem Coherent.perm {sites others : List Site} (h : Coherent sites) (hp : sites.Perm others) :
    Coherent others :=
  List.Pairwise.perm h hp Site.Agree.symm

theorem Coherent.sublist {sites others : List Site} (h : Coherent sites)
    (hs : others.Sublist sites) : Coherent others :=
  List.Pairwise.sublist hs h

/-- What agrees with one of two equal values under a name agrees with the other. -/
theorem Coherent.of_alike {sites others : List Site} (h : Coherent sites)
    (hf : List.Forall₂ (fun s t => s.name = t.name ∧ (s.name ≠ none → (s.value == t.value) = true))
      sites others) : Coherent others := by
  rw [Coherent, List.pairwise_iff_getElem] at h ⊢
  intro i j hi hj hlt name hnamei hnamej
  have hlen := hf.length_eq
  obtain ⟨hsamei, hvaluei⟩ := hf.get (hlen ▸ hi) hi
  obtain ⟨hsamej, hvaluej⟩ := hf.get (hlen ▸ hj) hj
  have hi' := hsamei.trans hnamei
  have hj' := hsamej.trans hnamej
  have hboth := h i j (hlen ▸ hi) (hlen ▸ hj) hlt name hi' hj'
  have hleft := Value.beq_symm (hvaluei (hi'.symm ▸ Option.some_ne_none name))
  have hright := hvaluej (hj'.symm ▸ Option.some_ne_none name)
  exact Value.beq_trans hleft (Value.beq_trans hboth hright)

namespace Bindings

/-! ### Coherent sites are bound -/

/-- The last site is the only one that the sites before it do not know of. -/
theorem reconciles_concat_iff {out : Bindings} {sites : List Site} {s : Site} :
    out.Reconciles (sites ++ [s]) ↔ out.Reconciles sites ∧
      ∀ name v, s.name = some name → out.known? sites name = some v → (v == s.value) = true := by
  rw [← record_fst_iff, ← record_fst_iff]
  rcases hr : out.record sites with ⟨_ | _, mid⟩
  · rw [record_append_of_refused hr]
    exact iff_of_false Bool.false_ne_true fun h => Bool.false_ne_true h.1
  · have hrec : out.Reconciles sites := by rw [← record_fst_iff, hr]
    have hknown : ∀ name, mid.get? name = out.known? sites name := by
      intro name
      rw [← get?_record hrec, hr]
    rw [record_append_of_accepted hr, record_singleton, pushSite_fst_iff, Agrees]
    simp only [hknown, true_and]

theorem known?_empty (sites : List Site) (name : String) :
    empty.known? sites name = (sites.find? fun s => s.name == some name).map Site.value := rfl

/-- Among coherent sites it makes no difference whether one more is compared with the first one
under its name or with all of them. -/
theorem agrees_with_known_iff {sites : List Site} (h : Coherent sites) (s : Site) :
    (∀ name v, s.name = some name → empty.known? sites name = some v → (v == s.value) = true) ↔
      ∀ t ∈ sites, t.Agree s := by
  simp only [known?_empty, Option.map_eq_some_iff]
  constructor
  · intro hs t ht name hn hname
    obtain ⟨first, hfirst⟩ : ∃ first, (sites.find? fun s => s.name == some name) = some first := by
      rw [← Option.isSome_iff_exists, List.find?_isSome]
      exact ⟨t, ht, by rw [hn, beq_self_eq_true]⟩
    have hfirstName : first.name = some name := by
      simpa using List.find?_some hfirst
    have hvalue := hs name first.value hname ⟨first, hfirst, rfl⟩
    by_cases heq : t = first
    · rw [heq]
      exact hvalue
    · -- The first site stands between the two.
      have hagree := List.Pairwise.forall h ht (List.mem_of_find?_eq_some hfirst) heq
      exact Value.beq_trans (hagree name hn hfirstName) hvalue
  · rintro hs name _ hname ⟨first, hfirst, rfl⟩
    have hfirstName : first.name = some name := by
      simpa using List.find?_some hfirst
    exact hs first (List.mem_of_find?_eq_some hfirst) name hfirstName hname

/-- **Sites are bound from nothing exactly if any two of them agree.** -/
theorem reconciles_empty_iff {sites : List Site} : empty.Reconciles sites ↔ Coherent sites := by
  induction sites using List.reverseRecOn with
  | nil => exact iff_of_true ((record_fst_iff empty []).mp rfl) List.Pairwise.nil
  | append_singleton sites s ih =>
    have happend : Coherent (sites ++ [s]) ↔ Coherent sites ∧ ∀ t ∈ sites, t.Agree s := by
      rw [Coherent, List.pairwise_append]
      simp [Coherent]
    rw [reconciles_concat_iff, happend, ih]
    exact and_congr_right fun h => agrees_with_known_iff h s

/-- What an attempt that starts from nothing binds, if it realizes a plan. -/
theorem Realizes.values_iff {plan : Option (List Site)} {r : Bool × Bindings}
    (h : empty.Realizes plan r) {bs : List Value} :
    r.1 = true ∧ bs = r.2.values ↔
      ∃ sites, plan = some sites ∧ Coherent sites ∧ bs = sites.map Site.value := by
  rw [h.fst_iff]
  constructor
  · rintro ⟨⟨sites, rfl, hrec⟩, rfl⟩
    change r = empty.record sites at h
    refine ⟨sites, rfl, reconciles_empty_iff.mp hrec, ?_⟩
    rw [h, values_record hrec]
    rfl
  · rintro ⟨sites, rfl, hco, rfl⟩
    change r = empty.record sites at h
    have hrec := reconciles_empty_iff.mpr hco
    refine ⟨⟨sites, rfl, hrec⟩, ?_⟩
    rw [h, values_record hrec]
    rfl

end Bindings

/-! ### Matches by their sites -/

namespace Matcher

theorem accepts_eq_isSome_bind? (m : Matcher) (o : Occasion) (v : Value) :
    m.accepts o v = (m.bind? o v).isSome := by
  rw [accepts, bind?]
  rcases attempt o m v .empty with ⟨_ | _, out⟩ <;> rfl

end Matcher

namespace Pattern

/-- **A match binds the values of the sites**, and there is one exactly if the value has the shape
of the pattern and any two of its sites agree. -/
theorem bind?_eq_some_iff_sites {p : Pattern} {d : Nat} {m : Matcher} (hp : p.Ordered)
    (h : compileAt d p = .ok m) {o : Occasion} {v : Value} {bs : List Value} :
    m.bind? o v = some bs ↔
      ∃ sites, p.sites? o v = some sites ∧ Coherent sites ∧ bs = sites.map Site.value :=
  Matcher.bind?_eq_some_iff.trans (realizes_attempt p hp h o v .empty).values_iff

end Pattern

end StructuralMatching
