/-
Segments put together.

The last of some segments is special.  It need not have a size, and it gets all bytes that are left.
With other segments behind it, it is not the last one any more.  This makes no difference as long as
the segments in front say themselves how many bytes they take.

* `Segment.IsSized` — a segment is a literal, or its size is known;
* `Segment.extent` — how many bytes segments take together;
* `Segment.layoutFrom_append` — the layout of two lists of segments is made of the layouts of both;
* `Segment.isCut_append_iff` — a cut along two lists consists of a cut along each;
* `Matcher.bind?_bytes_append` — both statements together, for what a layout matches and binds.

Design notes: that the bytes are divided at the extent of the first list follows from the cut alone.
No cursor is looked at here.
-/
import StructuralMatching.Proofs.Segment.Duality

namespace StructuralMatching

namespace Segment

/-! ### Layouts -/

/-- A literal segment takes the bytes of its literal, and a free one has a size of its own or by its
type. -/
def IsSized (s : Segment) : Prop :=
  s.literal = none → s.size.isSome ∨ s.kind.defaultSize?.isSome

instance (s : Segment) : Decidable s.IsSized := inferInstanceAs (Decidable (_ → _))

theorem isSome_of_declaredSpan {s : Segment} {span : Option Nat} (hs : s.IsSized)
    (hfree : s.literal = none) (h : s.declaredSpan = .ok span) : span.isSome := by
  have hsize : (s.size <|> s.kind.defaultSize?).isSome := by
    rw [Option.orElse_eq_orElse, Option.orElse_eq_or, Option.isSome_or, Bool.or_eq_true]
    exact hs hfree
  obtain ⟨size, hsize⟩ := Option.isSome_iff_exists.mp hsize
  rw [declaredSpan, bitWidth?, hsize, Option.map_some] at h
  simp only at h
  split at h
  · cases h
    rfl
  · cases h

/-- Whether a segment of known size is the last one is of no importance. -/
theorem field_eq_of_isSized {s : Segment} (hs : s.IsSized) (isLast isLast' : Bool) :
    s.field isLast = s.field isLast' := by
  rw [field, field]
  cases hspan : s.declaredSpan with
  | error e => rfl
  | ok span =>
    cases hfree : s.literal with
    | some value => rfl
    | none =>
      obtain ⟨n, rfl⟩ := Option.isSome_iff_exists.mp (isSome_of_declaredSpan hs hfree hspan)
      rfl

/-- The number of the first segment shows only in the error. -/
theorem layoutFrom_add (i k : Nat) (segments : List Segment) :
    layoutFrom (i + k) segments =
      (layoutFrom i segments).mapError fun e => (e.1 + k, e.2) := by
  induction segments generalizing i with
  | nil => rfl
  | cons s rest ih =>
    rw [layoutFrom, layoutFrom, Nat.add_right_comm, ih]
    cases s.field rest.isEmpty with
    | error e => rfl
    | ok f => cases layoutFrom (i + 1) rest <;> rfl

/-- **The layout of two lists of segments** is the one of the first list and then the one of the
second, if the segments of the first are of known size. -/
theorem layoutFrom_append {front : List Segment} (hfront : ∀ s ∈ front, s.IsSized) (i : Nat)
    (back : List Segment) :
    layoutFrom i (front ++ back) = (do
      let fields ← layoutFrom i front
      let more ← layoutFrom (i + front.length) back
      return fields ++ more) := by
  induction front generalizing i with
  | nil =>
    show layoutFrom i back = (layoutFrom i back >>= fun more => pure more)
    exact (bind_pure _).symm
  | cons s front ih =>
    rw [List.forall_mem_cons] at hfront
    rw [List.cons_append, layoutFrom, layoutFrom, field_eq_of_isSized hfront.1 _ front.isEmpty,
      ih hfront.2, List.length_cons, Nat.add_right_comm]
    cases s.field front.isEmpty with
    | error e => rfl
    | ok f =>
      cases layoutFrom (i + 1) front with
      | error e => rfl
      | ok fields => cases layoutFrom (i + front.length + 1) back <;> rfl

/-! ### Cuts -/

/-- How many bytes segments take together, without those of open width. -/
def extent (segments : List Segment) : Nat := (segments.filterMap width?).sum

theorem extent_cons {s : Segment} {n : Nat} (hn : s.width? = some n) (rest : List Segment) :
    extent (s :: rest) = n + extent rest := by
  rw [extent, List.filterMap_cons_some hn, List.sum_cons, extent]

/-- What segments of known size match is as long as they are together. -/
theorem length_of_isCut {i : Nat} {segments : List Segment} {fields : List Field}
    (hsized : ∀ s ∈ segments, s.IsSized) (h : layoutFrom i segments = .ok fields)
    {content : List UInt8} {chunks : List (List UInt8)} (hc : IsCut segments content chunks) :
    content.length = extent segments := by
  induction segments generalizing i fields content chunks with
  | nil =>
    obtain ⟨_, rfl⟩ := isCut_nil_iff.mp hc
    rfl
  | cons s rest ih =>
    rw [List.forall_mem_cons] at hsized
    obtain ⟨f, more, hf, hmore, _⟩ := layoutFrom_cons h
    obtain ⟨chunk, left, others, rfl, _, hsuits, hrest⟩ := isCut_cons_iff.mp hc
    -- A segment of known size has a fixed width even if it is the last one.
    rw [field_eq_of_isSized hsized.1 _ false] at hf
    obtain ⟨n, hn⟩ := width?_isSome hf
    have hlen : chunk.length = n := ((suits_iff hf chunk).mp hsuits).1 n hn
    rw [List.length_append, hlen, ih hsized.2 hmore hrest, extent_cons hn]

/-- **A cut along two lists of segments consists of a cut along each.** -/
theorem isCut_append_iff {front back : List Segment} {content : List UInt8}
    {chunks : List (List UInt8)} :
    IsCut (front ++ back) content chunks ↔ ∃ first second before after,
      content = first ++ second ∧ chunks = before ++ after ∧
      IsCut front first before ∧ IsCut back second after := by
  constructor
  · rintro ⟨rfl, h⟩
    have hbefore := (List.forall₂_take_append chunks front back h.flip).flip
    have hafter := (List.forall₂_drop_append chunks front back h.flip).flip
    have hchunks := List.take_append_drop front.length chunks
    refine ⟨_, _, _, _, ?_, hchunks.symm, ⟨rfl, hbefore⟩, rfl, hafter⟩
    rw [← List.flatten_append, hchunks]
  · rintro ⟨_, _, before, after, rfl, rfl, ⟨rfl, hbefore⟩, rfl, hafter⟩
    exact ⟨List.flatten_append, List.rel_append hbefore hafter⟩

theorem readings_append {front : List Segment} {content : List UInt8} {before : List (List UInt8)}
    (h : IsCut front content before) (back : List Segment) (after : List (List UInt8)) :
    readings (front ++ back) (before ++ after) = readings front before ++ readings back after := by
  rw [readings, List.zip_append h.2.length_eq, List.filterMap_append, readings, readings]

end Segment

namespace Matcher

/-- A match binds the readings of a cut. -/
theorem bind?_bytes_eq_some_iff {segments : List Segment} {fields : List Field}
    (h : layout segments = .ok fields) (o : Occasion) {v : Value} {content : List UInt8}
    (hv : contentOf? v = some content) (values : List Value) :
    (bytes fields).bind? o v = some values ↔
      ∃ chunks, Segment.IsCut segments content chunks ∧
        values = Segment.readings segments chunks := by
  refine ⟨exists_isCut_of_bind? h hv, ?_⟩
  rintro ⟨chunks, hc, rfl⟩
  obtain ⟨hok, hvalues, _⟩ := Bindings.record_unnamed .empty (Segment.readings segments chunks)
  rw [bind?_eq_some_iff, attempt_bytes_of_isCut h o hv hc]
  exact ⟨hok, hvalues.symm⟩

/-- Two layouts one after the other match what the first one matches, and then what the second one
does. -/
theorem bind?_bytes_append_iff {front back : List Segment} {fields more all : List Field}
    (hfront : ∀ s ∈ front, s.IsSized) (hfields : layout front = .ok fields)
    (hmore : layout back = .ok more) (hall : layout (front ++ back) = .ok all)
    (o o' o'' : Occasion) {v : Value} {content : List UInt8} (hv : contentOf? v = some content)
    (values : List Value) :
    (bytes all).bind? o v = some values ↔ Segment.extent front ≤ content.length ∧ ∃ xs ys,
      (bytes fields).bind? o' (.bytes (content.take (Segment.extent front))) = some xs ∧
      (bytes more).bind? o'' (.bytes (content.drop (Segment.extent front))) = some ys ∧
      values = xs ++ ys := by
  rw [bind?_bytes_eq_some_iff hall o hv]
  constructor
  · rintro ⟨chunks, hc, rfl⟩
    obtain ⟨first, second, before, after, rfl, rfl, hbefore, hafter⟩ :=
      Segment.isCut_append_iff.mp hc
    have hlen := Segment.length_of_isCut hfront hfields hbefore
    rw [← hlen, List.take_left, List.drop_left, List.length_append]
    exact ⟨Nat.le_add_right _ _, _, _,
      (bind?_bytes_eq_some_iff hfields o' rfl _).mpr ⟨before, hbefore, rfl⟩,
      (bind?_bytes_eq_some_iff hmore o'' rfl _).mpr ⟨after, hafter, rfl⟩,
      Segment.readings_append hbefore back after⟩
  · rintro ⟨_, xs, ys, hxs, hys, rfl⟩
    obtain ⟨before, hbefore, rfl⟩ := (bind?_bytes_eq_some_iff hfields o' rfl xs).mp hxs
    obtain ⟨after, hafter, rfl⟩ := (bind?_bytes_eq_some_iff hmore o'' rfl ys).mp hys
    refine ⟨before ++ after, Segment.isCut_append_iff.mpr ⟨_, _, before, after,
      (List.take_append_drop _ content).symm, rfl, hbefore, hafter⟩, ?_⟩
    exact (Segment.readings_append hbefore back after).symm

/-- **Layouts compose by concatenation.**  If the segments in front are of known size, then the
first error in front is reported, or else the first error behind, with the number that its segment
has in the whole list.  If there is none, the whole list matches a byte sequence exactly if the
segments in front match the bytes of their extent and those behind match the rest, and binds what
they bind. -/
theorem bind?_bytes_append {front : List Segment} (hfront : ∀ s ∈ front, s.IsSized)
    (back : List Segment) :
    (∀ e, layout front = .error e → layout (front ++ back) = .error e) ∧
    (∀ fields i e, layout front = .ok fields → layout back = .error (i, e) →
      layout (front ++ back) = .error (i + front.length, e)) ∧
    ∀ fields more, layout front = .ok fields → layout back = .ok more →
      ∃ all, layout (front ++ back) = .ok all ∧
        ∀ o o' o'' v content, contentOf? v = some content → ∀ values,
          ((bytes all).bind? o v = some values ↔ Segment.extent front ≤ content.length ∧ ∃ xs ys,
            (bytes fields).bind? o' (.bytes (content.take (Segment.extent front))) = some xs ∧
            (bytes more).bind? o'' (.bytes (content.drop (Segment.extent front))) = some ys ∧
            values = xs ++ ys) := by
  have happend := Segment.layoutFrom_append hfront 0 back
  have hback : layoutFrom (0 + front.length) back =
      (layout back).mapError fun e => (e.1 + front.length, e.2) :=
    Segment.layoutFrom_add 0 front.length back
  rw [hback] at happend
  refine ⟨fun e he => ?_, fun fields i e hfields he => ?_, fun fields more hfields hmore => ?_⟩
  · rw [layout, happend, ← layout, he]
    rfl
  · rw [layout, happend, ← layout, hfields, he]
    rfl
  · have hall : layout (front ++ back) = .ok (fields ++ more) := by
      rw [layout, happend, ← layout, hfields, hmore]
      rfl
    exact ⟨_, hall, fun o o' o'' v content hv =>
      bind?_bytes_append_iff hfront hfields hmore hall o o' o'' hv⟩

/-- Two bytes that have to be 1 and a number of one byte, before text that takes the rest; and
before text that would have to take it, but is not the last. -/
theorem bind?_bytes_append_tagged :
    ∃ front fields more all,
      front = [⟨some (.int 1), .integer, some 16, none, []⟩, ⟨none, .integer, none, none, []⟩] ∧
      (∀ s ∈ front, s.IsSized) ∧ layout front = .ok fields ∧
      layout [⟨none, .binary, none, none, []⟩] = .ok more ∧
      layout (front ++ [⟨none, .binary, none, none, []⟩]) = .ok all ∧
      (bytes all).bind? .start (.bytes [0, 1, 3, 97, 98]) = some [.int 3, .string "ab"] ∧
      layout (front ++ [⟨none, .binary, none, none, []⟩, ⟨none, .integer, none, none, []⟩]) =
        .error (2, .unsized .binary) := by
  have hsized : ∀ s ∈ [(⟨some (.int 1), .integer, some 16, none, []⟩ : Segment),
      ⟨none, .integer, none, none, []⟩], s.IsSized := by decide
  obtain ⟨all, hall, hbind⟩ :=
    (bind?_bytes_append hsized [⟨none, .binary, none, none, []⟩]).2.2 _ _ rfl rfl
  refine ⟨_, _, _, all, rfl, hsized, rfl, rfl, hall, ?_,
    (bind?_bytes_append hsized _).2.1 _ 0 _ rfl rfl⟩
  exact (hbind .start .start .start (.bytes [0, 1, 3, 97, 98]) _ rfl _).mpr
    ⟨by decide, [.int 3], [.string "ab"], rfl, rfl, rfl⟩

end Matcher

end StructuralMatching
