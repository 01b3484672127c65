/-
Patterns that lose nothing.

A value can be told from what it binds, up to equality, if nothing in it is passed over without
being bound.  What passes over something is a wildcard, an ignored variable, a map or an instance,
which may have other fields, a byte sequence, and a constant in which something is left open.  Under
a capture all of them do no harm, since the whole value is bound there.

* `Pattern.Exposes` — what is found in a pattern without going through a capture;
* `Pattern.Forgets` — what passes over something;
* `Pattern.Faithful` — nothing that does is exposed;
* `Pattern.beq_of_sites?` — values whose sites hold equal values are equal;
* `Pattern.beq_of_bind?` — values that bind equal values are equal.

Design notes: the values that are bound stand in one list without any marks.  It is cut back into
the blocks of the parts by their numbers of sites, which the pattern alone tells.
-/
import StructuralMatching.Proofs.Matching.Constants
import StructuralMatching.Proofs.Matching.Likeness

namespace StructuralMatching

namespace Pattern

/-! ### What is passed over -/

/-- What is found in a pattern by going through its parts, but not through a capture. -/
inductive Exposes : Pattern → Pattern → Prop where
  | refl (p : Pattern) : Exposes p p
  | head {head tail q : Pattern} (h : Exposes head q) : Exposes (headTail head tail) q
  | tail {head tail q : Pattern} (h : Exposes tail q) : Exposes (headTail head tail) q
  | item {items : List Pattern} {p q : Pattern} (hp : p ∈ items) (h : Exposes p q) :
      Exposes (list items) q
  | entry {fields : List (String × Pattern)} {e : String × Pattern} {q : Pattern} (he : e ∈ fields)
      (h : Exposes e.2 q) : Exposes (map fields) q
  | field {tag : ClassTag} {fields : List (String × Pattern)} {e : String × Pattern} {q : Pattern}
      (he : e ∈ fields) (h : Exposes e.2 q) : Exposes (instanceOf tag fields) q

/-- A pattern that passes over something of a value without binding it. -/
def Forgets : Pattern → Prop
  | wildcard | instanceOf _ _ | bitstring _ | map _ => True
  | var x => x.isIgnored = true
  | literal w => w.Reaches .undefined ∨ ∃ entries, w.Reaches (.map entries)
  | _ => False

/-- Whatever passes over something is captured as a whole. -/
def Faithful (p : Pattern) : Prop := ∀ q, p.Exposes q → ¬ q.Forgets

theorem Faithful.not_forgets {p : Pattern} (h : p.Faithful) : ¬ p.Forgets := h p (.refl p)

/-- Where nothing below is exposed, the pattern itself decides. -/
theorem faithful_iff_not_forgets {p : Pattern} (hp : ∀ q, p.Exposes q → q = p) :
    p.Faithful ↔ ¬ p.Forgets := by
  refine ⟨Faithful.not_forgets, fun h q hq => ?_⟩
  rw [hp q hq]
  exact h

theorem faithful_headTail_iff {head tail : Pattern} :
    (headTail head tail).Faithful ↔ head.Faithful ∧ tail.Faithful := by
  constructor
  · intro h
    exact ⟨fun q hq => h q (.head hq), fun q hq => h q (.tail hq)⟩
  · rintro ⟨hhead, htail⟩ q hq
    cases hq with
    | refl => exact id
    | head hq => exact hhead q hq
    | tail hq => exact htail q hq

theorem faithful_list_iff {items : List Pattern} :
    (list items).Faithful ↔ ∀ p ∈ items, p.Faithful := by
  constructor
  · intro h p hp q hq
    exact h q (.item hp hq)
  · intro h q hq
    cases hq with
    | refl => exact id
    | item hp hq => exact h _ hp q hq

theorem faithful_literal_iff {w : Value} : (literal w).Faithful ↔ w.IsExact := by
  have hleaf : ∀ q, (literal w).Exposes q → q = literal w := by
    intro q hq
    cases hq
    rfl
  rw [faithful_iff_not_forgets hleaf, Forgets, not_or, not_exists, Value.IsExact]

/-! ### Sites of values that are alike -/

theorem exists_of_sites?_startsWith {stem : String} {o : Occasion} {v : Value} {sites : List Site}
    (h : (startsWith stem).sites? o v = some sites) :
    ∃ rest, v = .string (String.ofList (stem.toList ++ rest)) ∧
      sites = [.unnamed (.string (String.ofList rest))] := by
  cases v with
  | string s =>
    obtain ⟨rest, hrest, rfl⟩ := Option.map_eq_some_iff.mp h
    refine ⟨rest, ?_, rfl⟩
    rw [List.isPrefixOf?_eq_some_iff_append_eq.mp hrest, String.ofList_toList]
  | _ => cases h

theorem exists_of_sites?_headTail {head tail : Pattern} {o : Occasion} {v : Value}
    {sites : List Site} (h : (headTail head tail).sites? o v = some sites) :
    ∃ first rest ss ts, v = .list (first :: rest) ∧ head.sites? (o.step 0) first = some ss ∧
      tail.sites? (o.step 1) (.list rest) = some ts ∧ sites = ss ++ ts := by
  cases v with
  | list vs =>
    cases vs with
    | nil => cases h
    | cons first rest =>
      obtain ⟨ss, hss, h⟩ := Option.bind_eq_some_iff.mp h
      obtain ⟨ts, hts, rfl⟩ := Option.map_eq_some_iff.mp h
      exact ⟨first, rest, ss, ts, rfl, hss, hts, rfl⟩
  | _ => cases h

theorem exists_of_sites?_list {items : List Pattern} {o : Occasion} {v : Value}
    {sites : List Site} (h : (list items).sites? o v = some sites) :
    ∃ vs, v = .list vs ∧ itemSites? o 0 items vs = some sites := by
  cases v with
  | list vs => exact ⟨vs, rfl, h⟩
  | _ => cases h

theorem exists_of_itemSites?_cons {p : Pattern} {ps : List Pattern} {o : Occasion} {i : Nat}
    {vs : List Value} {sites : List Site} (h : itemSites? o i (p :: ps) vs = some sites) :
    ∃ first rest ss ts, vs = first :: rest ∧ p.sites? (o.step i) first = some ss ∧
      itemSites? o (i + 1) ps rest = some ts ∧ sites = ss ++ ts := by
  cases vs with
  | nil => cases h
  | cons first rest =>
    obtain ⟨ss, hss, h⟩ := Option.bind_eq_some_iff.mp h
    obtain ⟨ts, hts, rfl⟩ := Option.map_eq_some_iff.mp h
    exact ⟨first, rest, ss, ts, rfl, hss, hts, rfl⟩

/-- Two lists of blocks, cut where the first block ends. -/
theorem forall₂_of_append {α β : Type} {R : α → β → Prop} {as more : List α} {bs rest : List β}
    (hlen : as.length = bs.length) (h : List.Forall₂ R (as ++ more) (bs ++ rest)) :
    List.Forall₂ R as bs ∧ List.Forall₂ R more rest := by
  have hfirst := List.forall₂_take_append (as ++ more) bs rest h
  have hsecond := List.forall₂_drop_append (as ++ more) bs rest h
  rw [List.take_left' hlen] at hfirst
  rw [List.drop_left' hlen] at hsecond
  exact ⟨hfirst, hsecond⟩

/-- The sites of a pattern at two values are as many at one as at the other. -/
theorem length_eq_of_sites? {p : Pattern} {o o' : Occasion} {v w : Value} {ss ts : List Site}
    (hss : p.sites? o v = some ss) (hts : p.sites? o' w = some ts) : ss.length = ts.length :=
  (length_sites? hss).trans (length_sites? hts).symm

mutual

-- The induction is on the pattern.  Under a capture nothing is asked for, and below all else that
-- has parts, the values are put together from those of the parts.

/-- **A faithful pattern tells values apart**: if the sites of two values hold equal values, then
the two are equal. -/
theorem beq_of_sites? (p : Pattern) (hp : p.Faithful) {o o' : Occasion} {v w : Value}
    {ss ts : List Site} (hss : p.sites? o v = some ss) (hts : p.sites? o' w = some ts)
    (h : List.Forall₂ (fun s t => (s.value == t.value) = true) ss ts) : (v == w) = true := by
  cases p with
  | wildcard | instanceOf | bitstring | map => exact absurd trivial hp.not_forgets
  | var x =>
    have hx : ¬ x.isIgnored = true := hp.not_forgets
    rw [sites?, if_neg hx] at hss hts
    cases hss
    cases hts
    cases h with
    | cons hvw _ => exact hvw
  | capture inner =>
    obtain ⟨as, has, rfl⟩ := Option.map_eq_some_iff.mp hss
    obtain ⟨bs, hbs, rfl⟩ := Option.map_eq_some_iff.mp hts
    -- The last block is the whole value; whatever the others say is not needed.
    cases (forall₂_of_append (length_eq_of_sites? has hbs) h).2 with
    | cons hvw _ => exact hvw
  | startsWith stem =>
    obtain ⟨rest, rfl, rfl⟩ := exists_of_sites?_startsWith hss
    obtain ⟨rest', rfl, rfl⟩ := exists_of_sites?_startsWith hts
    cases h with
    | cons hrest _ =>
      have heq : rest = rest' := String.ofList_injective (beq_iff_eq.mp hrest)
      rw [heq]
      exact Value.beq_of_equated (.plain trivial)
  | headTail head tail =>
    obtain ⟨hhead, htail⟩ := faithful_headTail_iff.mp hp
    obtain ⟨first, rest, as, as', rfl, has, has', rfl⟩ := exists_of_sites?_headTail hss
    obtain ⟨first', rest', bs, bs', rfl, hbs, hbs', rfl⟩ := exists_of_sites?_headTail hts
    obtain ⟨hfirst, hrest⟩ := forall₂_of_append (length_eq_of_sites? has hbs) h
    have hheads := beq_of_sites? head hhead has hbs hfirst
    have htails := beq_of_sites? tail htail has' hbs' hrest
    exact Value.beqList_iff.mpr (.cons hheads (Value.beqList_iff.mp htails))
  | bound x =>
    obtain ⟨hv, _⟩ := Option.ite_none_right_eq_some.mp hss
    obtain ⟨hw, _⟩ := Option.ite_none_right_eq_some.mp hts
    exact Value.beq_trans hv (Value.beq_symm hw)
  | literal x =>
    have hx := faithful_literal_iff.mp hp
    obtain ⟨hv, _⟩ := Option.ite_none_right_eq_some.mp hss
    obtain ⟨hw, _⟩ := Option.ite_none_right_eq_some.mp hts
    have hvx := Value.beq_of_below hx ((Value.accepts_iff_below x o v).mp hv)
    have hwx := Value.beq_of_below hx ((Value.accepts_iff_below x o' w).mp hw)
    exact Value.beq_trans hvx (Value.beq_symm hwx)
  | list items =>
    obtain ⟨vs, rfl, hvs⟩ := exists_of_sites?_list hss
    obtain ⟨ws, rfl, hws⟩ := exists_of_sites?_list hts
    exact Value.beqList_iff.mpr (beq_of_itemSites? items (faithful_list_iff.mp hp) hvs hws h)
termination_by structural p

theorem beq_of_itemSites? (ps : List Pattern) (hps : ∀ p ∈ ps, p.Faithful) {o o' : Occasion}
    {i i' : Nat} {vs ws : List Value} {ss ts : List Site} (hss : itemSites? o i ps vs = some ss)
    (hts : itemSites? o' i' ps ws = some ts)
    (h : List.Forall₂ (fun s t => (s.value == t.value) = true) ss ts) :
    List.Forall₂ (fun v w => (v == w) = true) vs ws := by
  cases ps with
  | nil =>
    have hvs := length_of_itemSites? hss
    have hws := length_of_itemSites? hts
    rw [List.eq_nil_of_length_eq_zero hvs, List.eq_nil_of_length_eq_zero hws]
    exact .nil
  | cons p ps =>
    rw [List.forall_mem_cons] at hps
    obtain ⟨first, rest, as, as', rfl, has, has', rfl⟩ := exists_of_itemSites?_cons hss
    obtain ⟨first', rest', bs, bs', rfl, hbs, hbs', rfl⟩ := exists_of_itemSites?_cons hts
    obtain ⟨hfirst, hrest⟩ := forall₂_of_append (length_eq_of_sites? has hbs) h
    exact .cons (beq_of_sites? p hps.1 has hbs hfirst)
      (beq_of_itemSites? ps hps.2 has' hbs' hrest)
termination_by structural ps

end

/-- **Values that bind equal values are equal**, as far as the pattern passes over nothing that is
not captured. -/
theorem beq_of_bind? {p : Pattern} {m : Matcher} (hp : p.Ordered) (h : p.compile = .ok m)
    (hfaithful : p.Faithful) {o o' : Occasion} {v w : Value} {bs cs : List Value}
    (hv : m.bind? o v = some bs) (hw : m.bind? o' w = some cs)
    (hall : List.Forall₂ (fun b c => (b == c) = true) bs cs) : (v == w) = true := by
  obtain ⟨ss, hss, _, rfl⟩ := (bind?_eq_some_iff_sites hp h).mp hv
  obtain ⟨ts, hts, _, rfl⟩ := (bind?_eq_some_iff_sites hp h).mp hw
  rw [List.forall₂_map_left_iff, List.forall₂_map_right_iff] at hall
  exact beq_of_sites? p hfaithful hss hts hall

/-- A map that is captured, the rest of a string before a constant, and a name that occurs twice,
with zeros of either sign. -/
theorem beq_of_bind?_captured :
    ∃ p : Pattern, p = list [var ⟨some "x", none⟩, capture (map [("k", var ⟨some "x", none⟩)]),
        headTail (startsWith "a") (literal (.list [.int 1]))] ∧ p.Ordered ∧ p.Faithful ∧
      ∃ m, p.compile = .ok m ∧ ∃ v w : Value,
        v = .list [.float (.ofMagnitude false 0), .map [("k", .float (.ofMagnitude true 0))],
          .list [.string "ab", .int 1]] ∧
        w = .list [.float (.ofMagnitude true 0), .map [("k", .float (.ofMagnitude true 0))],
          .list [.string "ab", .int 1]] ∧
        ∃ bs cs, m.bind? .start v = some bs ∧ m.bind? .start w = some cs ∧
          List.Forall₂ (fun b c => (b == c) = true) bs cs ∧ (v == w) = true := by
  have hp : (list [var ⟨some "x", none⟩, capture (map [("k", var ⟨some "x", none⟩)]),
      headTail (startsWith "a") (literal (.list [.int 1]))]).Ordered :=
    ⟨trivial, ⟨List.pairwise_singleton _ _, trivial, trivial⟩, ⟨trivial, trivial, trivial⟩, trivial⟩
  have hexact : (Value.list [.int 1]).IsExact := by
    constructor
    · intro h
      cases h with
      | item hw hx =>
        cases List.mem_singleton.mp hw
        cases hx
    · intro entries h
      cases h with
      | item hw hx =>
        cases List.mem_singleton.mp hw
        cases hx
  have hfaithful : (list [var ⟨some "x", none⟩, capture (map [("k", var ⟨some "x", none⟩)]),
      headTail (startsWith "a") (literal (.list [.int 1]))]).Faithful := by
    rw [faithful_list_iff, List.forall_mem_cons, List.forall_mem_cons, List.forall_mem_singleton,
      faithful_headTail_iff, faithful_literal_iff]
    refine ⟨?_, ?_, ?_, hexact⟩
    · exact (faithful_iff_not_forgets fun q hq => by cases hq; rfl).mpr Bool.false_ne_true
    · exact (faithful_iff_not_forgets fun q hq => by cases hq; rfl).mpr id
    · exact (faithful_iff_not_forgets fun q hq => by cases hq; rfl).mpr id
  have hall : List.Forall₂ (fun b c : Value => (b == c) = true)
      [.float (.ofMagnitude false 0), .float (.ofMagnitude true 0),
        .map [("k", .float (.ofMagnitude true 0))], .string "b"]
      [.float (.ofMagnitude true 0), .float (.ofMagnitude true 0),
        .map [("k", .float (.ofMagnitude true 0))], .string "b"] :=
    Value.beqList_iff.mp (by decide)
  exact ⟨_, rfl, hp, hfaithful, _, rfl, _, _, rfl, rfl, _, _, rfl, rfl, hall,
    @beq_of_bind? _ _ hp rfl hfaithful .start .start _ _ _ _ rfl rfl hall⟩

end Pattern

end StructuralMatching
