/-
Strict equality of values as a relation.

Equality of values is symmetric and transitive, but not reflexive: a value that holds a
not-a-number differs from itself.

* `Value.Equated` — what two equal values look like, kind by kind;
* `Value.beq_iff_equated` — values are equal exactly if they look like this;
* `Value.Reaches` — what is found in a value by going through lists and maps;
* `Value.beq_symm`, `Value.beq_trans`, `Value.beq_self_iff` — the laws of a partial equivalence;
* `Value.beq_partialEquivalence` — all of them, with what tells values apart.

Design notes: `Value.Equated` looks one level deep, and the laws are proved by an induction on the
value that goes through lists and maps only (`Value.inductionOnParts`).  An instance has no parts
here, since no fields are read when instances are compared.
-/
import Mathlib.Data.List.Forall2
import StructuralMatching.Value.Basic

namespace StructuralMatching

namespace Binary64

theorem beq_iff {x y : Binary64} :
    (x == y) = true ↔
      x.isNaN = false ∧ y.isNaN = false ∧ (x = y ∨ x.isZero = true ∧ y.isZero = true) := by
  have hbits : x.bits = y.bits ↔ x = y := by
    constructor
    · intro h
      cases x
      cases y
      simpa using h
    · rintro rfl
      rfl
  show equal x y = true ↔ _
  simp [equal, hbits, and_assoc]

theorem beq_symm {x y : Binary64} (h : (x == y) = true) : (y == x) = true := by
  rw [beq_iff] at h ⊢
  obtain ⟨hx, hy, heq | ⟨hx0, hy0⟩⟩ := h
  · exact ⟨hy, hx, .inl heq.symm⟩
  · exact ⟨hy, hx, .inr ⟨hy0, hx0⟩⟩

theorem beq_trans {x y z : Binary64} (hxy : (x == y) = true) (hyz : (y == z) = true) :
    (x == z) = true := by
  rw [beq_iff] at hxy hyz ⊢
  obtain ⟨hx, _, hxy⟩ := hxy
  obtain ⟨_, hz, hyz⟩ := hyz
  refine ⟨hx, hz, ?_⟩
  -- If one of the equalities is that of two zeros, the other one carries it on.
  rcases hxy with rfl | ⟨hx0, hy0⟩
  · exact hyz
  · rcases hyz with rfl | ⟨_, hz0⟩
    · exact .inr ⟨hx0, hy0⟩
    · exact .inr ⟨hx0, hz0⟩

theorem beq_self_iff (x : Binary64) : (x == x) = true ↔ x.isNaN = false := by
  simp [beq_iff]

end Binary64

/-- Lists related item by item, where the relation is transitive on the items of the first. -/
theorem forall₂_trans {α : Type} {R : α → α → Prop} {as bs cs : List α}
    (hmem : ∀ a ∈ as, ∀ b c, R a b → R b c → R a c) (hab : List.Forall₂ R as bs)
    (hbc : List.Forall₂ R bs cs) : List.Forall₂ R as cs := by
  induction hab generalizing cs with
  | nil => exact hbc
  | cons ha _ ih =>
    obtain ⟨c, rest, hb, hrest, rfl⟩ := List.forall₂_cons_left_iff.mp hbc
    exact .cons (hmem _ List.mem_cons_self _ _ ha hb)
      (ih (fun a ha => hmem a (List.mem_cons_of_mem _ ha)) hrest)

namespace Value

/-! ### Parts of values -/

/-- Neither a list nor a map. -/
def IsLeaf : Value → Prop
  | list _ | map _ => False
  | _ => True

/-- A statement holds of all values if it holds of lists and maps as soon as it holds of what is in
them, and of all other values. -/
@[elab_as_elim]
theorem inductionOnParts {P : Value → Prop} (leaf : ∀ v : Value, v.IsLeaf → P v)
    (list : ∀ items, (∀ w ∈ items, P w) → P (list items))
    (map : ∀ entries, (∀ e ∈ entries, P e.2) → P (map entries)) (v : Value) : P v := by
  cases v with
  | list items => exact list items fun w hw => inductionOnParts leaf list map w
  | map entries => exact map entries fun e he => inductionOnParts leaf list map e.2
  | _ => exact leaf _ trivial
termination_by sizeOf v
decreasing_by
  · have hlt := List.sizeOf_lt_of_mem hw
    simp only [Value.list.sizeOf_spec]
    omega
  · have hlt := List.sizeOf_lt_of_mem he
    have hsnd : sizeOf e = 1 + sizeOf e.1 + sizeOf e.2 := rfl
    simp only [Value.map.sizeOf_spec]
    omega

/-- What is found in a value by going through lists and maps, the value itself included. -/
inductive Reaches : Value → Value → Prop where
  | refl (v : Value) : Reaches v v
  | item {items : List Value} {w x : Value} (hw : w ∈ items) (hx : Reaches w x) :
      Reaches (list items) x
  | entry {entries : List (String × Value)} {e : String × Value} {x : Value} (he : e ∈ entries)
      (hx : Reaches e.2 x) : Reaches (map entries) x

theorem reaches_float_list_iff {items : List Value} {x : Binary64} :
    Reaches (list items) (float x) ↔ ∃ w ∈ items, Reaches w (float x) := by
  constructor
  · intro h
    cases h with
    | item hw hx => exact ⟨_, hw, hx⟩
  · rintro ⟨w, hw, hx⟩
    exact .item hw hx

theorem reaches_float_map_iff {entries : List (String × Value)} {x : Binary64} :
    Reaches (map entries) (float x) ↔ ∃ e ∈ entries, Reaches e.2 (float x) := by
  constructor
  · intro h
    cases h with
    | entry he hx => exact ⟨_, he, hx⟩
  · rintro ⟨e, he, hx⟩
    exact .entry he hx

theorem IsLeaf.eq_of_reaches {v x : Value} (hv : v.IsLeaf) (h : Reaches v x) : x = v := by
  cases h with
  | refl => rfl
  | item => exact hv.elim
  | entry => exact hv.elim

/-! ### One level of equality -/

/-- A value without parts that is equal to nothing but itself. -/
def IsPlain : Value → Prop
  | float _ | list _ | map _ | object _ => False
  | _ => True

/-- Two values of one kind that agree: plain values are the same, numbers are equal as numbers,
lists and maps agree part by part, and instances are one and the same. -/
inductive Equated : Value → Value → Prop where
  | plain {v : Value} (hv : v.IsPlain) : Equated v v
  | float {x y : Binary64} (h : (x == y) = true) : Equated (float x) (float y)
  | list {as bs : List Value} (h : List.Forall₂ (fun a b => (a == b) = true) as bs) :
      Equated (list as) (list bs)
  | map {as bs : List (String × Value)}
      (h : List.Forall₂ (fun a b => a.1 = b.1 ∧ (a.2 == b.2) = true) as bs) :
      Equated (map as) (map bs)
  | object {i j : Instance Value} (h : i.identity = j.identity) : Equated (object i) (object j)

theorem beqList_iff {as bs : List Value} :
    beqList as bs = true ↔ List.Forall₂ (fun a b => (a == b) = true) as bs := by
  induction as generalizing bs with
  | nil => cases bs <;> simp [beqList]
  | cons a as ih =>
    cases bs with
    | nil => simp [beqList]
    | cons b bs =>
      rw [beqList, Bool.and_eq_true, ih, List.forall₂_cons]
      rfl

theorem beqEntries_iff {as bs : List (String × Value)} :
    beqEntries as bs = true ↔
      List.Forall₂ (fun a b => a.1 = b.1 ∧ (a.2 == b.2) = true) as bs := by
  induction as generalizing bs with
  | nil => cases bs <;> simp [beqEntries]
  | cons a as ih =>
    cases bs with
    | nil => simp [beqEntries]
    | cons b bs =>
      rw [beqEntries, Bool.and_eq_true, Bool.and_eq_true, ih, List.forall₂_cons, beq_iff_eq]
      rfl

theorem object_beq_iff {i j : Instance Value} :
    (object i == object j) = true ↔ i.identity = j.identity := by
  show (i.identity == j.identity) = true ↔ _
  exact beq_iff_eq

theorem beq_of_equated {v w : Value} (h : Equated v w) : (v == w) = true := by
  cases h with
  | float h => exact h
  | list h => exact beqList_iff.mpr h
  | map h => exact beqEntries_iff.mpr h
  | object h => exact object_beq_iff.mpr h
  | plain hv =>
    cases v with
    | undefined | null => rfl
    | bool b => exact beq_self_eq_true b
    | int n => exact beq_self_eq_true n
    | string s => exact beq_self_eq_true s
    | atom name => exact beq_self_eq_true name
    | bytes content => exact beq_self_eq_true content
    | float | list | map | object => exact hv.elim

/-- **Values are equal exactly if they are of one kind and agree in it.** -/
theorem beq_iff_equated {v w : Value} : (v == w) = true ↔ Equated v w := by
  refine ⟨fun h => ?_, beq_of_equated⟩
  cases v <;> cases w
  case undefined.undefined | null.null => exact .plain trivial
  case bool.bool a b | int.int a b | string.string a b | atom.atom a b | bytes.bytes a b =>
    obtain rfl : a = b := beq_iff_eq.mp h
    exact .plain trivial
  case float.float x y => exact .float h
  case list.list as bs => exact .list (beqList_iff.mp h)
  case map.map as bs => exact .map (beqEntries_iff.mp h)
  case object.object i j => exact .object (object_beq_iff.mp h)
  -- Values of different kinds are told apart at once.
  all_goals exact absurd h Bool.false_ne_true

/-! ### The laws -/

theorem beq_symm {v w : Value} (h : (v == w) = true) : (w == v) = true := by
  induction v using inductionOnParts generalizing w with
  | leaf v hv =>
    cases beq_iff_equated.mp h with
    | plain => exact h
    | float hx => exact beq_of_equated (.float (Binary64.beq_symm hx))
    | object hid => exact beq_of_equated (.object hid.symm)
    | list => exact hv.elim
    | map => exact hv.elim
  | list items ih =>
    cases beq_iff_equated.mp h with
    | plain hv => exact hv.elim
    | list hitems =>
      have hboth := (List.forall₂_and_left items _).mpr ⟨fun a ha => @ih a ha, hitems⟩
      exact beq_of_equated (.list (hboth.imp fun a b hab => hab.1 hab.2).flip)
  | map entries ih =>
    cases beq_iff_equated.mp h with
    | plain hv => exact hv.elim
    | map hentries =>
      have hboth := (List.forall₂_and_left entries _).mpr ⟨fun a ha => @ih a ha, hentries⟩
      refine beq_of_equated (.map (List.Forall₂.flip ?_))
      exact hboth.imp fun a b hab => ⟨hab.2.1.symm, hab.1 hab.2.2⟩

theorem beq_trans {u v w : Value} (huv : (u == v) = true) (hvw : (v == w) = true) :
    (u == w) = true := by
  induction u using inductionOnParts generalizing v w with
  | leaf u hu =>
    cases beq_iff_equated.mp huv with
    | plain => exact hvw
    | float hxy =>
      cases beq_iff_equated.mp hvw with
      | plain hv => exact hv.elim
      | float hyz => exact beq_of_equated (.float (Binary64.beq_trans hxy hyz))
    | object hij =>
      cases beq_iff_equated.mp hvw with
      | plain hv => exact hv.elim
      | object hjk => exact beq_of_equated (.object (hij.trans hjk))
    | list => exact hu.elim
    | map => exact hu.elim
  | list items ih =>
    cases beq_iff_equated.mp huv with
    | plain hu => exact hu.elim
    | list hab =>
      cases beq_iff_equated.mp hvw with
      | plain hv => exact hv.elim
      | list hbc => exact beq_of_equated (.list (forall₂_trans (fun a ha b c => ih a ha) hab hbc))
  | map entries ih =>
    cases beq_iff_equated.mp huv with
    | plain hu => exact hu.elim
    | map hab =>
      cases beq_iff_equated.mp hvw with
      | plain hv => exact hv.elim
      | map hbc =>
        refine beq_of_equated (.map (forall₂_trans ?_ hab hbc))
        intro a ha b c hab hbc
        exact ⟨hab.1.trans hbc.1, ih a ha hab.2 hbc.2⟩

/-- A value is equal to itself exactly if no not-a-number is found in it. -/
theorem beq_self_iff (v : Value) :
    (v == v) = true ↔ ∀ x, Reaches v (float x) → x.isNaN = false := by
  induction v using inductionOnParts with
  | leaf v hv =>
    constructor
    · intro h x hx
      obtain rfl := hv.eq_of_reaches hx
      exact (Binary64.beq_self_iff x).mp h
    · intro h
      cases v with
      | float x => exact (Binary64.beq_self_iff x).mpr (h x (.refl _))
      | list => exact hv.elim
      | map => exact hv.elim
      | object i => exact beq_of_equated (.object rfl)
      | _ => exact beq_of_equated (.plain trivial)
  | list items ih =>
    have hself : (list items == list items) = true ↔ ∀ w ∈ items, (w == w) = true :=
      beqList_iff.trans List.forall₂_same
    rw [hself]
    constructor
    · intro h x hx
      obtain ⟨w, hw, hx⟩ := reaches_float_list_iff.mp hx
      exact (ih w hw).mp (h w hw) x hx
    · intro h w hw
      exact (ih w hw).mpr fun x hx => h x (.item hw hx)
  | map entries ih =>
    have hself : (map entries == map entries) = true ↔ ∀ e ∈ entries, (e.2 == e.2) = true := by
      refine beqEntries_iff.trans (List.forall₂_same.trans ?_)
      simp
    rw [hself]
    constructor
    · intro h x hx
      obtain ⟨e, he, hx⟩ := reaches_float_map_iff.mp hx
      exact (ih e he).mp (h e he) x hx
    · intro h e he
      exact (ih e he).mpr fun x hx => h x (.entry he hx)

theorem ctorIdx_eq_of_beq {v w : Value} (h : (v == w) = true) : v.ctorIdx = w.ctorIdx := by
  cases beq_iff_equated.mp h with
  | plain | float | list | map | object => rfl

/-- **Equality of values is a partial equivalence**, reflexive exactly on the values in which no
not-a-number is found.  Values of different kinds are never equal, instances are equal only if they
are one and the same, and zero has no sign. -/
theorem beq_partialEquivalence :
    (∀ v w : Value, (v == w) = true → (w == v) = true) ∧
    (∀ u v w : Value, (u == v) = true → (v == w) = true → (u == w) = true) ∧
    (∀ v : Value, (v == v) = true ↔ ∀ x, Reaches v (float x) → x.isNaN = false) ∧
    (∀ i : Instance Value, (object i == object i) = true) ∧
    (∀ v w : Value, (v == w) = true → v.ctorIdx = w.ctorIdx) ∧
    (∀ i j : Instance Value, (object i == object j) = true ↔ i.identity = j.identity) ∧
    (float (.ofMagnitude false 0) == float (.ofMagnitude true 0)) = true := by
  refine ⟨fun v w => beq_symm, fun u v w => beq_trans, beq_self_iff, fun i => ?_,
    fun v w => ctorIdx_eq_of_beq, fun i j => object_beq_iff, ?_⟩
  · exact object_beq_iff.mpr rfl
  · decide

/-- Zeros of either sign beside an instance whose field is a not-a-number, and such a field of a
map. -/
theorem beq_partialEquivalence_fields :
    ∃ i : Instance Value, i.fields .start = [("x", float .nan)] ∧
      (list [float (.ofMagnitude true 0), object i] ==
        list [float (.ofMagnitude false 0), object i]) = true ∧
      (map [("x", float .nan)] == map [("x", float .nan)]) = false := by
  refine ⟨⟨.given 0, ⟨"Point"⟩, "Point", fun _ => [("x", float .nan)]⟩, rfl, ?_, ?_⟩
  · exact beq_partialEquivalence.1 _ _ (by decide)
  · refine Bool.eq_false_iff.mpr fun h => ?_
    have hnan := (beq_partialEquivalence.2.2.1 _).mp h .nan (.entry List.mem_cons_self (.refl _))
    exact absurd hnan (by decide)

end Value

end StructuralMatching
