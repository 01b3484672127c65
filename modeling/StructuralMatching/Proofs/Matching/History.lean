/-
Bindings after any history.

Bindings hold the same thing twice, as values in order and as places of names, and an attempt that
fails leaves its part of both behind for the next one.  Here sites are pushed one after the other,
whether those before them were bound or not:

* `Bindings.pushAll` — a history of sites, with the answer to each of them;
* `Bindings.accepted` — the sites of a history that were bound;
* `Bindings.Keeps` — the values are those of given sites, and a name has the place of the first of
  them under it;
* `Bindings.keeps_pushAll` — this is so after any history, for the sites that were bound;
* `Bindings.known_pushAll` — what a name stands for never changes;
* `Bindings.pushAll_isRecord` — all that can be said of bindings from what was pushed into them.

Design notes: `Keeps` is an equivalence for the places, so it also says that no name has two of
them.  One site more is the only step; the rest is induction on the history.
-/
import StructuralMatching.Proofs.Matching.Reconciliation
import StructuralMatching.Proofs.Value.Equality

namespace StructuralMatching

/-- A value that differs from itself differs from everything. -/
theorem Value.beq_eq_false_of_self {v : Value} (hv : (v == v) = false) (w : Value) :
    (v == w) = false := by
  by_contra h
  have hvw : (v == w) = true := by simpa using h
  have hself : (v == v) = true := Value.beq_trans hvw (Value.beq_symm hvw)
  rw [hv] at hself
  exact Bool.false_ne_true hself

namespace Bindings

/-- Pushes sites one after the other, also behind one that is refused.  The answers tell which of
them were bound. -/
def pushAll (out : Bindings) : List Site → List Bool × Bindings
  | [] => ([], out)
  | s :: rest =>
    ((out.pushSite s).1 :: ((out.pushSite s).2.pushAll rest).1,
      ((out.pushSite s).2.pushAll rest).2)

/-- The sites that were bound, by the answers to them. -/
def accepted : List Site → List Bool → List Site
  | s :: rest, ok :: oks => if ok then s :: accepted rest oks else accepted rest oks
  | _, _ => []

/-- The bindings hold the values of these sites and no others, and every name has the place of the
first site under it. -/
structure Keeps (out : Bindings) (kept : List Site) : Prop where
  values_eq : out.values = kept.map Site.value
  place_iff : ∀ name i, (name, i) ∈ out.names ↔
    (kept.findIdx? fun s => s.name == some name) = some i

/-! ### Places of names -/

variable {out : Bindings} {kept : List Site}

theorem keeps_empty : empty.Keeps [] := ⟨rfl, fun name i => by simp [empty]⟩

theorem Keeps.lookup_eq (h : out.Keeps kept) (name : String) :
    out.names.lookup name = kept.findIdx? fun s => s.name == some name := by
  cases hl : out.names.lookup name with
  | none =>
    cases hp : kept.findIdx? fun s => s.name == some name with
    | none => rfl
    | some i =>
      have hmem : (name, i) ∈ out.names := (h.place_iff name i).mpr hp
      have hne := List.lookup_eq_none_iff.mp hl (name, i) hmem
      simp at hne
  | some i =>
    obtain ⟨l₁, l₂, heq, _⟩ := List.lookup_eq_some_iff.mp hl
    have hmem : (name, i) ∈ out.names := by simp [heq]
    exact ((h.place_iff name i).mp hmem).symm

/-- A place is that of a value. -/
theorem Keeps.place_lt (h : out.Keeps kept) {name : String} {i : Nat}
    (hmem : (name, i) ∈ out.names) : i < out.values.length := by
  have hp := (h.place_iff name i).mp hmem
  obtain ⟨hlt, _⟩ := List.findIdx?_eq_some_iff_getElem.mp hp
  rw [h.values_eq, List.length_map]
  exact hlt

/-- A name stands for the value of the first site under it. -/
theorem Keeps.get?_eq (h : out.Keeps kept) (name : String) :
    out.get? name = (kept.find? fun s => s.name == some name).map Site.value := by
  rw [get?, h.lookup_eq, h.values_eq, List.find?_eq_bind_findIdx?_getElem?]
  cases kept.findIdx? fun s => s.name == some name with
  | none => rfl
  | some i => simp

/-! ### One more site -/

/-- A site without a name, or under a name that is known, leaves the places as they are. -/
theorem Keeps.push (h : out.Keeps kept) {s : Site}
    (hs : ∀ name, s.name = some name → ∃ v, out.get? name = some v) :
    (out.push s.value).Keeps (kept ++ [s]) := by
  refine ⟨?_, fun name i => ?_⟩
  · show out.values ++ [s.value] = _
    rw [h.values_eq, List.map_append, List.map_singleton]
  · show (name, i) ∈ out.names ↔ _
    rw [h.place_iff, List.findIdx?_append]
    cases hp : kept.findIdx? fun s => s.name == some name with
    | some j => simp
    | none =>
      -- The first site under this name cannot be `s`, since it would be known.
      have hne : s.name ≠ some name := by
        intro hn
        obtain ⟨v, hv⟩ := hs name hn
        rw [get?, h.lookup_eq, hp] at hv
        cases hv
      simp [hne]

/-- The first site under a name gives the name its place. -/
theorem Keeps.pushFirst (h : out.Keeps kept) {first : String} (hf : out.get? first = none)
    (value : Value) : (out.pushFirst first value).Keeps (kept ++ [⟨some first, value⟩]) := by
  refine ⟨?_, fun name i => ?_⟩
  · show out.values ++ [value] = _
    rw [h.values_eq, List.map_append, List.map_singleton]
  · show (name, i) ∈ (first, out.values.length) :: out.names ↔ _
    have hlen : out.values.length = kept.length := by rw [h.values_eq, List.length_map]
    rw [List.mem_cons, h.place_iff, List.findIdx?_append, hlen, Prod.mk.injEq]
    by_cases hn : name = first
    · subst hn
      have hnone : (kept.findIdx? fun s => s.name == some name) = none := by
        rw [← h.lookup_eq]
        exact lookup_eq_none_of_get? hf
      simp [hnone, eq_comm]
    · have hne : ¬first = name := fun heq => hn heq.symm
      simp [hn, hne]

/-- **One more site**: it is kept if it is bound, and nothing changes if it is refused. -/
theorem Keeps.pushSite (h : out.Keeps kept) (s : Site) :
    (out.pushSite s).2.Keeps (kept ++ if (out.pushSite s).1 then [s] else []) := by
  obtain ⟨_ | name, value⟩ := s
  · exact h.push fun name hn => by cases hn
  · show (out.pushNamed name value).2.Keeps
      (kept ++ if (out.pushNamed name value).1 then [⟨some name, value⟩] else [])
    cases hg : out.get? name with
    | none =>
      rw [pushNamed_of_unknown hg]
      exact h.pushFirst hg value
    | some v =>
      rw [pushNamed_of_known hg]
      by_cases heq : (v == value) = true
      · rw [if_pos heq]
        refine h.push (s := ⟨some name, value⟩) fun other hn => ?_
        cases hn
        exact ⟨v, hg⟩
      · rw [if_neg heq]
        simpa using h

/-- A site is refused exactly if its name stands for a value that is not equal to it. -/
theorem pushNamed_eq_false_iff (out : Bindings) (name : String) (value : Value) :
    (out.pushNamed name value).1 = false ↔
      ∃ v, out.get? name = some v ∧ (v == value) = false := by
  cases hg : out.get? name with
  | none => simp [pushNamed_of_unknown hg]
  | some v =>
    rw [pushNamed_of_known hg]
    by_cases heq : (v == value) = true
    · simp [heq]
    · simp [heq]

/-- A refusal changes nothing. -/
theorem pushNamed_of_refused {name : String} {value : Value}
    (h : (out.pushNamed name value).1 = false) : (out.pushNamed name value).2 = out := by
  obtain ⟨v, hv, hne⟩ := (pushNamed_eq_false_iff out name value).mp h
  rw [pushNamed_of_known hv, hne]
  rfl

/-- What a name stands for does not change with one more site. -/
theorem known_pushSite {name : String} {v : Value} (h : out.get? name = some v) (s : Site) :
    (out.pushSite s).2.get? name = some v := by
  cases hok : (out.pushSite s).1 with
  | true => rw [get?_pushSite hok, known?, h, Option.some_or]
  | false =>
    obtain ⟨_ | other, value⟩ := s
    · cases hok
    · have hsame : (out.pushNamed other value).2 = out := pushNamed_of_refused hok
      show (out.pushNamed other value).2.get? name = some v
      rw [hsame, h]

/-! ### Whole histories -/

theorem length_answers (out : Bindings) (sites : List Site) :
    (out.pushAll sites).1.length = sites.length := by
  induction sites generalizing out with
  | nil => rfl
  | cons s rest ih => simp [pushAll, ih]

/-- **After any history** the bindings hold what they held before and the sites that were bound. -/
theorem keeps_pushAll (h : out.Keeps kept) (sites : List Site) :
    (out.pushAll sites).2.Keeps (kept ++ accepted sites (out.pushAll sites).1) := by
  induction sites generalizing out kept with
  | nil => simpa [pushAll, accepted] using h
  | cons s rest ih =>
    have hrest := ih (h.pushSite s)
    rw [pushAll, accepted]
    cases hok : (out.pushSite s).1 with
    | true => simpa [hok] using hrest
    | false => simpa [hok] using hrest

/-- What a name stands for never changes. -/
theorem known_pushAll {name : String} {v : Value} (h : out.get? name = some v)
    (sites : List Site) : (out.pushAll sites).2.get? name = some v := by
  induction sites generalizing out with
  | nil => exact h
  | cons s rest ih => exact ih (known_pushSite h s)

/-- What can be said of bindings from the sites that were pushed into them and the answers. -/
structure IsRecord (sites : List Site) (answers : List Bool) (out : Bindings) : Prop where
  length_eq : answers.length = sites.length
  /-- The values are those of the sites that were bound, and a name has the place of the first of
  them under it. -/
  keeps : out.Keeps (accepted sites answers)
  /-- All places are those of values. -/
  place_lt : ∀ name i, (name, i) ∈ out.names → i < out.values.length
  /-- A name stands for the value of the first site under it that was bound. -/
  get?_eq : ∀ name, out.get? name =
    ((accepted sites answers).find? fun s => s.name == some name).map Site.value
  /-- One more value is refused under a name exactly if the name stands for another one. -/
  refused_iff : ∀ name value, (out.pushNamed name value).1 = false ↔
    ∃ first, out.get? name = some first ∧ (first == value) = false
  /-- Then nothing changes. -/
  refused_eq : ∀ name value, (out.pushNamed name value).1 = false →
    (out.pushNamed name value).2 = out
  /-- Whatever is pushed later, a name that is known stands for the same value. -/
  lasting : ∀ more name v, out.get? name = some v → (out.pushAll more).2.get? name = some v
  /-- Whatever is pushed later, a name that stands for a not-a-number takes no other value. -/
  nan_refused : ∀ more name x, out.get? name = some (.float x) → x.isNaN = true →
    ∀ value, ((out.pushAll more).2.pushNamed name value).1 = false

/-- **Bindings record their history.**  Values and places of names tell of the same sites, those
that were bound, and the first of them under a name decides about all others. -/
theorem pushAll_isRecord (sites : List Site) :
    IsRecord sites (empty.pushAll sites).1 (empty.pushAll sites).2 where
  length_eq := length_answers empty sites
  keeps := keeps_pushAll keeps_empty sites
  place_lt := fun name i hmem => (keeps_pushAll keeps_empty sites).place_lt hmem
  get?_eq := (keeps_pushAll keeps_empty sites).get?_eq
  refused_iff := pushNamed_eq_false_iff _
  refused_eq := fun name value hno => pushNamed_of_refused hno
  lasting := fun more name v hv => known_pushAll hv more
  nan_refused := by
    intro more name x hx hnan value
    have hself : (Value.float x == Value.float x) = false := by
      show (x == x) = false
      have h := Binary64.beq_self_iff x
      rw [hnan] at h
      simpa using h
    rw [pushNamed_eq_false_iff]
    exact ⟨.float x, known_pushAll hx more, Value.beq_eq_false_of_self hself value⟩

/-- Both zeros under one name, and a not-a-number under another one. -/
theorem pushAll_isRecord_zeros :
    ∃ sites out, sites = [⟨some "x", .float ⟨0⟩⟩, .unnamed (.int 9),
        ⟨some "x", .float ⟨0x8000000000000000⟩⟩, ⟨some "x", .int 0⟩, ⟨some "y", .float .nan⟩,
        ⟨some "y", .float .nan⟩] ∧
      empty.pushAll sites = ([true, true, true, false, true, false], out) ∧
      out.values.length = 4 ∧ ("y", 3) ∈ out.names ∧ out.get? "x" = some (.float ⟨0⟩) ∧
      (out.pushAll [.unnamed .null]).2.get? "x" = some (.float ⟨0⟩) ∧
      ∀ value, ((out.pushAll [.unnamed .null]).2.pushNamed "y" value).1 = false := by
  have h := pushAll_isRecord [⟨some "x", .float ⟨0⟩⟩, .unnamed (.int 9),
    ⟨some "x", .float ⟨0x8000000000000000⟩⟩, ⟨some "x", .int 0⟩, ⟨some "y", .float .nan⟩,
    ⟨some "y", .float .nan⟩]
  have hx := h.lasting [.unnamed .null] "x" (.float ⟨0⟩) rfl
  have hy := h.nan_refused [.unnamed .null] "y" .nan rfl rfl
  exact ⟨_, _, rfl, rfl, rfl, List.mem_cons_self, rfl, hx, hy⟩

end Bindings

end StructuralMatching
