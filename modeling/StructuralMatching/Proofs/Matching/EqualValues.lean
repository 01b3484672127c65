/-
Equal values are matched in the same way.

Values that are equal need not be the same: zero has two signs.  A match cannot tell them apart,
and it binds equal values, whatever names have to agree.  There is one thing that a match takes
from a value and that is not equal to itself: the not-a-number that a free segment may read from
bytes.

* `Pattern.bind?_rel` — two matches of values that are alike, if only equal values are alike;
* `Value.IsInstanceFree`, `likeness_beq` — equal values without instances are alike;
* `Segment.beq_self_of_decode?` — only a number that is read can differ from itself;
* `Pattern.bind?_congr_beq` — equal values bind equal values, or one not-a-number that a segment
  reads;
* `Pattern.bind?_ne_of_nan` — the exception cannot be left out.
-/
import StructuralMatching.Proofs.Matching.Likeness

namespace StructuralMatching

namespace Pattern

/-- Two matches of values that are alike, if only equal values are alike: both succeed, at the same
sites, or both fail. -/
theorem bind?_rel {R : Occasion → Occasion → Value → Value → Prop} (hR : Likeness R)
    (hequal : ∀ o o' v w, R o o' v w → (v == w) = true) {p : Pattern} {d : Nat} {m : Matcher}
    (hp : p.Ordered) (h : compileAt d p = .ok m) (o o' : Occasion) {v w : Value}
    (hvw : R o o' v w) :
    Option.Rel (fun bs cs => ∃ ss ts, SameSites R p.origins ss ts ∧ bs = ss.map Site.value ∧
      cs = ts.map Site.value) (m.bind? o v) (m.bind? o' w) := by
  have hplans := sameSites_sites? hR p hvw
  cases hb : m.bind? o v with
  | some bs =>
    obtain ⟨ss, hss, hco, rfl⟩ := (bind?_eq_some_iff_sites hp h).mp hb
    rw [hss] at hplans
    generalize hts : p.sites? o' w = plan at hplans
    cases hplans with
    | @some _ ts hsites =>
      have hco' := (hsites.coherent_iff hequal).mp hco
      have hcs := (bind?_eq_some_iff_sites hp h).mpr ⟨ts, hts, hco', rfl⟩
      rw [hcs]
      exact .some ⟨ss, ts, hsites, rfl, rfl⟩
  | none =>
    cases hc : m.bind? o' w with
    | none => exact .none
    | some cs =>
      -- A match of the second value alone would be one of the first value too.
      obtain ⟨ts, hts, hco, rfl⟩ := (bind?_eq_some_iff_sites hp h).mp hc
      rw [hts] at hplans
      generalize hss : p.sites? o v = plan at hplans
      cases hplans with
      | @some ss _ hsites =>
        have hbs := (bind?_eq_some_iff_sites hp h).mpr
          ⟨ss, hss, (hsites.coherent_iff hequal).mpr hco, rfl⟩
        rw [hb] at hbs
        cases hbs

end Pattern

/-! ### Equal values without instances -/

namespace Value

/-- No instance is found by going through lists and maps. -/
def IsInstanceFree (v : Value) : Prop := ∀ i, ¬ Reaches v (object i)

theorem IsInstanceFree.item {items : List Value} (h : (list items).IsInstanceFree) {w : Value}
    (hw : w ∈ items) : w.IsInstanceFree := fun i hi => h i (.item hw hi)

theorem IsInstanceFree.tail {items : List Value} (h : (list items).IsInstanceFree) :
    (list items.tail).IsInstanceFree := by
  intro i hi
  cases hi with
  | item hw hx => exact h i (.item (List.mem_of_mem_tail hw) hx)

theorem IsInstanceFree.entry {entries : List (String × Value)} (h : (map entries).IsInstanceFree)
    {e : String × Value} (he : e ∈ entries) : e.2.IsInstanceFree := fun i hi => h i (.entry he hi)

/-- Equal values are equal to the same values. -/
theorem beq_congr {v w : Value} (h : (v == w) = true) (x : Value) : (v == x) = (w == x) := by
  rw [Bool.eq_iff_iff]
  exact ⟨fun hvx => beq_trans (beq_symm h) hvx, fun hwx => beq_trans h hwx⟩

end Value

/-- Equal values without instances are alike, whenever they are read. -/
theorem likeness_beq :
    Likeness fun _ _ v w => (v == w) = true ∧ v.IsInstanceFree where
  step := by
    intro o o' v w h i
    exact h
  beq_eq := by
    intro o o' v w h x
    exact Value.beq_congr h.1 x
  text_eq := by
    intro o o' v w h
    cases Value.beq_iff_equated.mp h.1 with
    | plain | float | list | map | object => rfl
  content_eq := by
    intro o o' v w h
    cases Value.beq_iff_equated.mp h.1 with
    | plain | float | list | map | object => rfl
  tag_eq := by
    intro o o' v w h
    cases Value.beq_iff_equated.mp h.1 with
    | plain | float | list | map => rfl
    | @object i => exact absurd (.refl _) (h.2 i)
  items := by
    intro o o' v w h
    cases Value.beq_iff_equated.mp h.1 with
    | @plain v hv => cases v <;> first | exact hv.elim | exact .none
    | float | map | object => exact .none
    | @list as bs hitems =>
      have hfree := (List.forall₂_and_left as _).mpr ⟨fun a ha => h.2.item ha, hitems⟩
      refine .some ⟨hfree.imp fun a b hab => ⟨hab.2, hab.1⟩, ?_, h.2.tail⟩
      refine Value.beq_of_equated (.list ?_)
      rw [← List.drop_one, ← List.drop_one]
      exact List.forall₂_drop 1 hitems
  fields := by
    intro o o' v w h
    cases Value.beq_iff_equated.mp h.1 with
    | @plain v hv => cases v <;> first | exact hv.elim | exact .none
    | float | list => exact .none
    | @map as bs hentries =>
      have hfree := (List.forall₂_and_left as _).mpr ⟨fun a ha => h.2.entry ha, hentries⟩
      exact .some (hfree.imp fun a b hab => ⟨hab.2.1, hab.2.2, hab.1⟩)
    | @object i => exact absurd (.refl _) (h.2 i)

/-! ### What is read from bytes -/

namespace Segment

/-- Segments of numbers with a point read such numbers, and no other segments do. -/
theorem kind_of_decode? {s : Segment} {chunk : List UInt8} {v : Value}
    (h : s.blank.decode? chunk = some v) : (s.kind = .float ∧ ∃ x, v = .float x) ∨ v.IsPlain := by
  have hkind : s.blank.kind = s.kind := rfl
  rw [Field.decode?, hkind] at h
  cases hs : s.kind with
  | integer =>
    simp only [hs, Option.ite_none_right_eq_some, Option.map_eq_some_iff] at h
    obtain ⟨_, n, _, rfl⟩ := h
    exact .inr trivial
  | float =>
    simp only [hs] at h
    split at h
    · cases h
      exact .inl ⟨rfl, _, rfl⟩
    · cases h
      exact .inl ⟨rfl, _, rfl⟩
    · cases h
  | bitstring | binary | utf8 =>
    simp only [hs, Option.some.injEq] at h
    subst h
    exact .inr trivial
  | utf16 | utf32 =>
    simp only [hs] at h
    obtain ⟨units, _, h⟩ := Option.bind_eq_some_iff.mp h
    obtain ⟨text, _, h⟩ := Option.bind_eq_some_iff.mp h
    cases h
    exact .inr trivial

/-- What a free segment reads is equal to itself, unless it is a not-a-number. -/
theorem beq_self_of_decode? {s : Segment} {chunk : List UInt8} {v : Value}
    (h : s.blank.decode? chunk = some v) :
    (v == v) = true ∨ s.kind = .float ∧ ∃ x, v = .float x ∧ x.isNaN = true := by
  rcases kind_of_decode? h with ⟨hs, x, rfl⟩ | hv
  · cases hx : x.isNaN with
    | true => exact .inr ⟨hs, x, rfl, hx⟩
    | false => exact .inl ((Binary64.beq_self_iff x).mpr hx)
  · exact .inl (Value.beq_of_equated (.plain hv))

end Segment

/-- A site that two equal values meet binds equal values, or twice the not-a-number that a segment
reads from a piece of bytes. -/
theorem SameSite.beq_or_nan {origin : Origin} {s t : Site}
    (h : SameSite (fun _ _ v w => (v == w) = true ∧ v.IsInstanceFree) origin s t) :
    (s.value == t.value) = true ∨ ∃ segment chunk x, origin = .segment segment ∧
      segment.kind = .float ∧ segment.blank.decode? chunk = some (.float x) ∧ x.isNaN = true ∧
      s.value = .float x ∧ t.value = .float x := by
  cases h with
  | part hvw => exact .inl hvw.1
  | suffix text => exact .inl (Value.beq_of_equated (.plain trivial))
  | @segment segment chunk v hread =>
    rcases Segment.beq_self_of_decode? hread with hself | ⟨hkind, x, rfl, hx⟩
    · exact .inl hself
    · exact .inr ⟨segment, chunk, x, rfl, hkind, hread, hx, rfl, rfl⟩

namespace Pattern

/-- **Matching does not tell equal values apart.**  A pattern accepts both or neither of two equal
values without instances, and what it binds is equal one by one; only at a free segment of numbers
may both hold the same not-a-number instead, which the segment reads from a piece of bytes. -/
theorem bind?_congr_beq {p : Pattern} {m : Matcher} (hp : p.Ordered) (h : p.compile = .ok m)
    {v w : Value} (hv : v.IsInstanceFree) (hvw : (v == w) = true) (o o' : Occasion) :
    m.accepts o v = m.accepts o' w ∧
    ∀ bs cs : List Value, m.bind? o v = some bs → m.bind? o' w = some cs → bs.length = cs.length ∧
      ∀ (i : Nat) (b c : Value), bs[i]? = some b → cs[i]? = some c → (b == c) = true ∨
        ∃ (s : Segment) (chunk : List UInt8) (x : Binary64), p.origins[i]? = some (.segment s) ∧
          s.kind = .float ∧ s.blank.decode? chunk = some (.float x) ∧ x.isNaN = true ∧
          b = .float x ∧ c = .float x := by
  have hrel := bind?_rel likeness_beq (fun _ _ _ _ h => h.1) hp h o o' ⟨hvw, hv⟩
  rw [Matcher.accepts_eq_isSome_bind?, Matcher.accepts_eq_isSome_bind?]
  generalize m.bind? o v = r at hrel
  generalize m.bind? o' w = r' at hrel
  cases hrel with
  | none => exact ⟨rfl, fun bs cs hbs => by cases hbs⟩
  | some hsome =>
    refine ⟨rfl, fun bs cs hbs hcs => ?_⟩
    cases hbs
    cases hcs
    obtain ⟨ss, ts, hsites, rfl, rfl⟩ := hsome
    refine ⟨?_, fun i b c hb hc => ?_⟩
    · rw [List.length_map, List.length_map, hsites.length_eq.1, hsites.length_eq.2]
    · rw [List.getElem?_map, Option.map_eq_some_iff] at hb hc
      obtain ⟨s, hs, rfl⟩ := hb
      obtain ⟨t, ht, rfl⟩ := hc
      obtain ⟨origin, horigin, hst⟩ := hsites.getElem? hs ht
      rcases hst.beq_or_nan with heq | ⟨segment, chunk, x, rfl, hkind, hread, hx, hsx, htx⟩
      · exact .inl heq
      · exact .inr ⟨segment, chunk, x, horigin, hkind, hread, hx, hsx, htx⟩

/-- Zeros of either sign under one name, one of them below a key, and a not-a-number that is read
from bytes. -/
theorem bind?_congr_beq_zeros :
    ∃ p : Pattern, p = list [var ⟨some "x", none⟩, map [("k", var ⟨some "x", none⟩)],
        bitstring [⟨none, .float, none, none, []⟩]] ∧ p.Ordered ∧
      ∃ m, p.compile = .ok m ∧ ∃ v w : Value,
        v = .list [.float (.ofMagnitude false 0), .map [("k", .float (.ofMagnitude true 0))],
          .bytes [0x7f, 0xf8, 0, 0, 0, 0, 0, 0]] ∧
        w = .list [.float (.ofMagnitude true 0), .map [("k", .float (.ofMagnitude true 0))],
          .bytes [0x7f, 0xf8, 0, 0, 0, 0, 0, 0]] ∧
        v.IsInstanceFree ∧ (v == w) = true ∧ m.accepts .start v = true ∧
        m.accepts .start w = true := by
  have hp : (list [var ⟨some "x", none⟩, map [("k", var ⟨some "x", none⟩)],
      bitstring [⟨none, .float, none, none, []⟩]]).Ordered :=
    ⟨trivial, ⟨by rw [Fields.Ascending]; decide, trivial, trivial⟩, trivial, trivial⟩
  have hfree : (Value.list [.float (.ofMagnitude false 0),
      .map [("k", .float (.ofMagnitude true 0))],
      .bytes [0x7f, 0xf8, 0, 0, 0, 0, 0, 0]]).IsInstanceFree := by
    intro i hi
    obtain ⟨w, hw, hx⟩ : ∃ w ∈ _, Value.Reaches w (.object i) := by
      cases hi with
      | item hw hx => exact ⟨_, hw, hx⟩
    simp only [List.mem_cons, List.not_mem_nil, or_false] at hw
    rcases hw with rfl | rfl | rfl
    · cases hx
    · cases hx with
      | entry he hx =>
        cases List.mem_singleton.mp he
        cases hx
    · cases hx
  have hequal := bind?_congr_beq hp rfl hfree (by decide) .start .start
    (w := .list [.float (.ofMagnitude true 0), .map [("k", .float (.ofMagnitude true 0))],
      .bytes [0x7f, 0xf8, 0, 0, 0, 0, 0, 0]])
  exact ⟨_, rfl, hp, _, rfl, _, _, rfl, rfl, hfree, by decide, by decide, hequal.1 ▸ by decide⟩

/-- A not-a-number that is read from one byte sequence is not equal to itself, so equal values need
not bind equal values. -/
theorem bind?_ne_of_nan :
    ¬ ∀ (p : Pattern) (m : Matcher) (v w : Value) (o o' : Occasion) (bs cs : List Value),
      p.Ordered → p.compile = .ok m → v.IsInstanceFree → w.IsInstanceFree → (v == w) = true →
      m.bind? o v = some bs → m.bind? o' w = some cs →
      bs.length = cs.length ∧ List.Forall₂ (fun b c => (b == c) = true) bs cs := by
  intro h
  have hfree : (Value.bytes [0x7f, 0xf8, 0, 0, 0, 0, 0, 0]).IsInstanceFree := by
    intro i hi
    cases hi
  obtain ⟨_, hall⟩ := h (bitstring [⟨none, .float, none, none, []⟩]) _
    (.bytes [0x7f, 0xf8, 0, 0, 0, 0, 0, 0]) (.bytes [0x7f, 0xf8, 0, 0, 0, 0, 0, 0]) .start .start
    [.float ⟨0x7ff8000000000000⟩] [.float ⟨0x7ff8000000000000⟩] trivial rfl hfree hfree (by decide)
    rfl rfl
  cases hall with
  | cons hnan _ => exact absurd hnan (by decide)

end Pattern

end StructuralMatching
