/-
The cursor that walks over a byte sequence along a layout.

A layout is matched piece by piece: each field takes its bytes off the front of what is left.  The
same can be done in place.  Then a cursor moves over the byte sequence, and there are some things
to be careful about: a field without a span, a sum that exceeds a machine word, a piece that ends
behind the last byte.  Most of them never occur, because of what laying out has made sure of.

* `Segment.IsLaidOutAs` — what is fixed of a segment that has been laid out;
* `Field.turn?`, `Field.walk` — one turn of the cursor, and the whole walk;
* `Field.Arrives` — the positions that the cursor comes to;
* `Field.walk_eq_attemptAll` — in place or piece by piece, the result is the same;
* `Segment.TurnIsSafe` — what does not happen in a turn;
* `Matcher.attempt_bytes_walks_safely` — what is fixed of every segment, and that every turn of
  every walk is safe.

Design notes: a byte sequence in memory has fewer than `2 ^ 63` bytes.  Nothing but the sum of
cursor and span depends on that.
-/
import StructuralMatching.Proofs.Segment.Cut

namespace StructuralMatching

/-! ### What is fixed by laying out -/

namespace Segment

/-- A segment has been laid out as a field, which is the last one or not. -/
structure IsLaidOutAs (s : Segment) (isLast : Prop) (f : Field) : Prop where
  kind_eq : f.kind = s.kind
  /-- A free field has the declared width. -/
  span_of_free : s.literal = none → f.literal = none ∧ s.declaredSpan = .ok f.span
  /-- A literal field has the width of its bytes. -/
  span_of_literal : ∀ value, s.literal = some value → ∃ bytes,
    s.blank.encode value = .ok bytes ∧ f.literal = some bytes ∧ f.span = some bytes.length
  /-- Only the last field may be open. -/
  span_isSome : ¬isLast → f.span.isSome
  span_of_integer : f.kind = .integer → ∃ n, f.span = some n ∧ 1 ≤ n ∧ n ≤ 8
  /-- A field is open only if it is the last one and free, and neither it nor its type has a
  size. -/
  open_of_span : f.span = none →
    isLast ∧ f.literal = none ∧ s.size = none ∧ f.kind ≠ .integer ∧ f.kind ≠ .float

variable {s : Segment} {isLast : Bool} {f : Field}

theorem checkIntegerSpan_eq_ok_iff {span : Option Nat} :
    checkIntegerSpan span = .ok () ↔ ∃ n, span = some n ∧ 1 ≤ n ∧ n ≤ 8 := by
  cases span with
  | none => simp [checkIntegerSpan]
  | some n => simp [checkIntegerSpan]

theorem declaredSpan_eq_ok_none_iff :
    s.declaredSpan = .ok none ↔ s.size = none ∧ s.kind ≠ .integer ∧ s.kind ≠ .float := by
  have hbits : s.declaredSpan = .ok none ↔ s.bitWidth? = none := by
    rw [declaredSpan]
    cases s.bitWidth? with
    | none => simp
    | some bits =>
      by_cases halign : bits % 8 = 0
      · simp [halign]
      · simp [halign]
  rw [hbits, bitWidth?, Option.map_eq_none_iff]
  cases hsize : s.size with
  | some size => simp
  | none => cases hkind : s.kind <;> simp [SegmentType.defaultSize?]

/-- A width in bits is a 64-bit word, so there are not so many bytes. -/
theorem declaredSpan_lt {n : Nat} (h : s.declaredSpan = .ok (some n)) : n < 2 ^ 61 := by
  rw [declaredSpan] at h
  cases hbits : s.bitWidth? with
  | none => simp [hbits] at h
  | some bits =>
    by_cases halign : bits % 8 = 0
    · simp only [hbits, halign, if_true, Except.ok.injEq, Option.some.injEq] at h
      have hlt := bits.toNat_lt
      have heq : (bits / 8).toNat = bits.toNat / 8 := by simp
      omega
    · simp [hbits, halign] at h

/-- A free integer segment is laid out only if it has one to eight bytes. -/
theorem checkIntegerSpan_of_free (hs : s.literal = none) (hk : s.kind = .integer)
    (h : s.field isLast = .ok f) : checkIntegerSpan f.span = .ok () := by
  rw [(field_of_free hs h).1]
  obtain ⟨span, hspan, h⟩ := bind_eq_ok_iff.mp h
  rw [span_blank hspan]
  simp only [hs, freeField, hk, if_true] at h
  split at h
  · cases h
  · obtain ⟨_, hcheck, _⟩ := bind_eq_ok_iff.mp h
    exact hcheck

/-- The bytes of an integer literal are one to eight. -/
theorem length_encode_of_integer {g : Field} {value : Value} {bytes : List UInt8}
    (hk : g.kind = .integer) (h : g.encode value = .ok bytes) :
    1 ≤ bytes.length ∧ bytes.length ≤ 8 := by
  obtain ⟨kind, span, literal, signed, order⟩ := g
  subst hk
  cases value with
  | int n =>
    obtain ⟨_, hcheck, h⟩ := bind_eq_ok_iff.mp h
    obtain ⟨width, hwidth, hrange⟩ := checkIntegerSpan_eq_ok_iff.mp hcheck
    cases h
    rw [ByteOrder.length_encode, Option.some.inj hwidth]
    exact hrange
  | undefined | null | bool | float | string | atom | bytes | list | map | object => cases h

/-- What is fixed of a segment that has been laid out. -/
theorem isLaidOutAs_of_field (h : s.field isLast = .ok f) : s.IsLaidOutAs (isLast = true) f := by
  cases hs : s.literal with
  | none =>
    obtain ⟨span, hspan, _⟩ := bind_eq_ok_iff.mp h
    have hcheck := fun hk => checkIntegerSpan_of_free hs hk h
    obtain ⟨rfl, hopen⟩ := field_of_free hs h
    rw [← span_blank hspan] at hspan
    have hopen : ¬isLast = true → s.blank.span.isSome := by simpa using hopen
    refine ⟨rfl, fun _ => ⟨rfl, hspan⟩, fun value hvalue => ?_, hopen, fun hk => ?_,
      fun hnone => ?_⟩
    · rw [hs] at hvalue
      cases hvalue
    · exact checkIntegerSpan_eq_ok_iff.mp (hcheck hk)
    · rw [hnone] at hspan hopen
      refine ⟨?_, rfl, declaredSpan_eq_ok_none_iff.mp hspan⟩
      by_contra hlast
      simpa using hopen hlast
  | some value =>
    obtain ⟨bytes, hbytes, rfl, _⟩ := field_of_literal hs h
    refine ⟨rfl, by simp [hs], fun value' hvalue' => ?_, by simp, fun hk => ?_, by simp⟩
    · rw [hs] at hvalue'
      cases hvalue'
      exact ⟨bytes, hbytes, rfl, rfl⟩
    · exact ⟨_, rfl, length_encode_of_integer (g := s.blank) hk hbytes⟩

/-- The segments of a layout are laid out one by one. -/
theorem field_of_layoutFrom {i : Nat} {segments : List Segment} {fields : List Field}
    (h : layoutFrom i segments = .ok fields) : fields.length = segments.length ∧
      ∀ (j : Nat) (s : Segment) (f : Field), segments[j]? = some s → fields[j]? = some f →
        s.field (j + 1 == segments.length) = .ok f := by
  induction segments generalizing i fields with
  | nil =>
    cases h
    simp
  | cons first rest ih =>
    obtain ⟨g, more, hg, hmore, rfl⟩ := layoutFrom_cons h
    obtain ⟨hlength, hfields⟩ := ih hmore
    refine ⟨by simp [hlength], fun j s f hs hf => ?_⟩
    cases j with
    | zero =>
      simp only [List.getElem?_cons_zero, Option.some.injEq] at hs hf
      subst hs hf
      rw [← hg]
      cases rest <;> rfl
    | succ j =>
      rw [List.getElem?_cons_succ] at hs hf
      simpa using hfields j s f hs hf

end Segment

/-! ### The walk -/

namespace Field

/-- The number of different machine words. -/
def wordCount : Nat := 2 ^ 64

/-- Where the bytes of a field end: with the byte sequence if it is the last field, or else as many
bytes after the cursor as its span says.  There is no end if the sum exceeds a machine word. -/
def stop? (f : Field) (isLast : Bool) (cursor length : Nat) : Option Nat :=
  if isLast then some length
  else if cursor + f.span.getD 0 < wordCount then some (cursor + f.span.getD 0)
  else none

/-- The bytes from one place to another, if these are places in the byte sequence. -/
def slice? (content : List UInt8) (start stop : Nat) : Option (List UInt8) :=
  if start ≤ stop ∧ stop ≤ content.length then some ((content.drop start).take (stop - start))
  else none

/-- One turn: where the next field begins, and what is bound up to there. -/
def turn? (f : Field) (content : List UInt8) (isLast : Bool) (cursor : Nat) (out : Bindings) :
    Option (Nat × Bindings) := do
  let stop ← f.stop? isLast cursor content.length
  let chunk ← slice? content cursor stop
  match f.attempt chunk out with
  | (true, out) => some (stop, out)
  | (false, _) => none

/-- Walks on from the cursor. -/
def walkFrom (content : List UInt8) : List Field → Nat → Bindings → Bool × Bindings
  | [], _, out => (true, out)
  | f :: rest, cursor, out =>
    match f.turn? content rest.isEmpty cursor out with
    | some (stop, out) => walkFrom content rest stop out
    | none => (false, out)

/-- Walks over a byte sequence in place.  Without fields there must not be a byte. -/
def walk (fields : List Field) (content : List UInt8) (out : Bindings) : Bool × Bindings :=
  if fields.isEmpty then (content.isEmpty, out) else walkFrom content fields 0 out

/-- The walk arrives at a place with fields still to come and with bindings. -/
inductive Arrives (content : List UInt8) (fields : List Field) (out : Bindings) :
    List Field → Nat → Bindings → Prop where
  | start : Arrives content fields out fields 0 out
  | turn {f : Field} {rest : List Field} {cursor stop : Nat} {mid next : Bindings}
      (before : Arrives content fields out (f :: rest) cursor mid)
      (taken : f.turn? content rest.isEmpty cursor mid = some (stop, next)) :
      Arrives content fields out rest stop next

/-- A turn hands these bytes on to be read: those of a free field, if there are as many as its span
says. -/
def Decodes (f : Field) (content : List UInt8) (isLast : Bool) (cursor : Nat)
    (chunk : List UInt8) : Prop :=
  (∃ stop, f.stop? isLast cursor content.length = some stop ∧
    slice? content cursor stop = some chunk) ∧
  f.literal = none ∧ ∀ n, f.span = some n → chunk.length = n

/-- The byte sequences that have a place in memory. -/
structure InMemory (fields : List Field) (content : List UInt8) : Prop where
  content_lt : content.length < 2 ^ 63
  literal_lt : ∀ f ∈ fields, ∀ bytes, f.literal = some bytes → bytes.length < 2 ^ 63

theorem slice?_eq_some_iff {content chunk : List UInt8} {start stop : Nat} :
    slice? content start stop = some chunk ↔
      start ≤ stop ∧ stop ≤ content.length ∧ chunk = (content.drop start).take (stop - start) := by
  rw [slice?]
  split
  · rename_i hle
    simp [hle, eq_comm]
  · rename_i hle
    simp only [reduceCtorEq, false_iff]
    intro h
    exact hle ⟨h.1, h.2.1⟩

/-- What happens in a turn that comes to an end. -/
theorem turn?_eq_some_iff {f : Field} {content : List UInt8} {isLast : Bool} {cursor stop : Nat}
    {out next : Bindings} : f.turn? content isLast cursor out = some (stop, next) ↔
      f.stop? isLast cursor content.length = some stop ∧ ∃ chunk,
        slice? content cursor stop = some chunk ∧ f.attempt chunk out = (true, next) := by
  rw [turn?]
  simp only [Option.bind_eq_bind, Option.bind_eq_some_iff]
  constructor
  · rintro ⟨stop', hstop, chunk, hchunk, h⟩
    split at h
    · rename_i mid hok
      cases h
      exact ⟨hstop, chunk, hchunk, hok⟩
    · cases h
  · rintro ⟨hstop, chunk, hchunk, hok⟩
    exact ⟨stop, hstop, chunk, hchunk, by rw [hok]⟩

/-! ### In place or piece by piece -/

/-- A field that refuses its bytes binds nothing. -/
theorem eq_of_attempt_eq_false {f : Field} {chunk : List UInt8} {out next : Bindings}
    (h : f.attempt chunk out = (false, next)) : next = out := by
  rw [attempt] at h
  split at h
  · cases h
    rfl
  · split at h
    · exact (congrArg Prod.snd h).symm
    · split at h
      · cases h
      · cases h
        rfl

/-- The bytes of a turn are taken off what is left, if the sum of cursor and span is in range. -/
theorem turn?_eq {f : Field} {content : List UInt8} {isLast : Bool} {cursor width : Nat}
    (hcursor : cursor ≤ content.length)
    (hwidth : width = if isLast then (content.drop cursor).length else f.span.getD 0)
    (hsum : isLast = false → cursor + f.span.getD 0 < wordCount) (out : Bindings) :
    f.turn? content isLast cursor out =
      if (content.drop cursor).length < width then none
      else match f.attempt ((content.drop cursor).take width) out with
        | (true, next) => some (cursor + width, next)
        | (false, _) => none := by
  have hleft : (content.drop cursor).length = content.length - cursor := List.length_drop
  have hstop : f.stop? isLast cursor content.length = some (cursor + width) := by
    rw [stop?]
    cases isLast with
    | true =>
      simp only [if_true, Option.some.injEq] at hwidth ⊢
      omega
    | false => simp [hsum rfl, hwidth]
  rw [turn?, hstop]
  by_cases hlen : (content.drop cursor).length < width
  · have hnone : slice? content cursor (cursor + width) = none := by
      rw [slice?, if_neg (by omega)]
    rw [if_pos hlen]
    simp [hnone]
  · have hslice : slice? content cursor (cursor + width) =
        some ((content.drop cursor).take width) :=
      slice?_eq_some_iff.mpr ⟨by omega, by omega, by rw [Nat.add_sub_cancel_left]⟩
    rw [if_neg hlen]
    simp only [Option.bind_eq_bind, Option.bind_some, hslice]

/-- Walking on from the cursor is cutting what is left along the fields that are left. -/
theorem walkFrom_eq_attemptAll {content : List UInt8} (hcontent : content.length < 2 ^ 63)
    {f : Field} {rest : List Field} (hspan : ∀ g ∈ f :: rest, g.span.getD 0 < 2 ^ 63) {cursor : Nat}
    (hcursor : cursor ≤ content.length) (out : Bindings) :
    walkFrom content (f :: rest) cursor out =
      attemptAll (f :: rest) (content.drop cursor) out := by
  induction rest generalizing f cursor out with
  | nil =>
    -- The last field takes all that is left.
    rw [walkFrom, attemptAll]
    simp only [List.isEmpty_nil, if_true, Nat.lt_irrefl, if_false, List.take_length,
      List.drop_length]
    rw [turn?_eq hcursor rfl (by simp)]
    simp only [if_true, Nat.lt_irrefl, if_false, List.take_length]
    rcases hattempt : f.attempt (content.drop cursor) out with ⟨ok, next⟩
    cases ok with
    | true => rfl
    | false =>
      rw [eq_of_attempt_eq_false hattempt]
  | cons g rest ih =>
    have hf := hspan f List.mem_cons_self
    have hsum : cursor + f.span.getD 0 < wordCount := by
      rw [wordCount]
      omega
    rw [walkFrom, attemptAll]
    simp only [List.isEmpty_cons, Bool.false_eq_true, if_false]
    rw [turn?_eq hcursor rfl fun _ => hsum]
    simp only [Bool.false_eq_true, if_false]
    by_cases hlen : (content.drop cursor).length < f.span.getD 0
    · rw [if_pos hlen, if_pos hlen]
    · rw [if_neg hlen, if_neg hlen]
      rcases hattempt : f.attempt ((content.drop cursor).take (f.span.getD 0)) out with ⟨ok, next⟩
      cases ok with
      | true =>
        have hnext : cursor + f.span.getD 0 ≤ content.length := by
          rw [List.length_drop] at hlen
          omega
        show walkFrom content (g :: rest) _ next = attemptAll (g :: rest) _ next
        rw [ih (fun x hx => hspan x (List.mem_cons_of_mem _ hx)) hnext, List.drop_drop]
      | false => rw [eq_of_attempt_eq_false hattempt]

/-- **In place or piece by piece**, the result is the same. -/
theorem walk_eq_attemptAll {content : List UInt8} (hcontent : content.length < 2 ^ 63)
    {fields : List Field} (hspan : ∀ g ∈ fields, g.span.getD 0 < 2 ^ 63) (out : Bindings) :
    walk fields content out = attemptAll fields content out := by
  cases fields with
  | nil => rfl
  | cons f rest => exact walkFrom_eq_attemptAll hcontent hspan (Nat.zero_le _) out

/-! ### The positions of the cursor -/

variable {content : List UInt8} {fields rest : List Field} {cursor : Nat} {out mid : Bindings}

/-- The cursor never leaves the byte sequence. -/
theorem Arrives.cursor_le (h : Arrives content fields out rest cursor mid) :
    cursor ≤ content.length := by
  cases h with
  | start => exact Nat.zero_le _
  | turn before taken =>
    obtain ⟨_, chunk, hchunk, _⟩ := turn?_eq_some_iff.mp taken
    exact (slice?_eq_some_iff.mp hchunk).2.1

/-- The fields still to come are those from some number on. -/
theorem Arrives.exists_drop (h : Arrives content fields out rest cursor mid) :
    ∃ i, rest = fields.drop i := by
  induction h with
  | start => exact ⟨0, rfl⟩
  | turn before taken ih =>
    obtain ⟨i, hi⟩ := ih
    exact ⟨i + 1, by rw [← List.tail_drop, ← hi, List.tail_cons]⟩

end Field

/-! ### Nothing happens in a turn that should not -/

namespace Segment

variable {s : Segment} {isLast : Prop} {f : Field} {later : List Field} {content : List UInt8}
  {cursor : Nat} {mid : Bindings}

/-- The turn of the field of a segment is safe. -/
structure TurnIsSafe (s : Segment) (content : List UInt8) (f : Field) (later : List Field)
    (cursor : Nat) (mid : Bindings) : Prop where
  /-- A field with fields after it has a span, so none has to be made up. -/
  span_isSome : later ≠ [] → f.span.isSome
  /-- The sum of cursor and span is a machine word. -/
  sum_lt : later ≠ [] → cursor + f.span.getD 0 < Field.wordCount
  /-- An integer is never read from no bytes, nor from more than eight. -/
  length_of_integer : f.kind = .integer → ∀ chunk, f.Decodes content later.isEmpty cursor chunk →
    1 ≤ chunk.length ∧ chunk.length ≤ 8
  /-- A free field with fields after it takes as many bytes as its segment declares. -/
  advance_eq : s.literal = none → later ≠ [] → ∀ stop next,
    f.turn? content later.isEmpty cursor mid = some (stop, next) →
      ∃ n, s.declaredSpan = .ok (some n) ∧ stop = cursor + n

theorem IsLaidOutAs.span_lt (h : s.IsLaidOutAs isLast f)
    (hliteral : ∀ bytes, f.literal = some bytes → bytes.length < 2 ^ 63) :
    f.span.getD 0 < 2 ^ 63 := by
  cases hs : s.literal with
  | none =>
    obtain ⟨_, hspan⟩ := h.span_of_free hs
    cases hn : f.span with
    | none => simp
    | some n =>
      rw [hn] at hspan
      have hlt := declaredSpan_lt hspan
      rw [Option.getD_some]
      omega
  | some value =>
    obtain ⟨bytes, _, hbytes, hspan⟩ := h.span_of_literal value hs
    rw [hspan, Option.getD_some]
    exact hliteral bytes hbytes

/-- A turn is safe if the cursor is in a byte sequence that is in memory. -/
theorem IsLaidOutAs.turnIsSafe (h : s.IsLaidOutAs (later = []) f)
    (hliteral : ∀ bytes, f.literal = some bytes → bytes.length < 2 ^ 63)
    (hcontent : content.length < 2 ^ 63) (hcursor : cursor ≤ content.length) (mid : Bindings) :
    s.TurnIsSafe content f later cursor mid := by
  have hspan := h.span_lt hliteral
  refine ⟨h.span_isSome, fun _ => ?_, fun hk chunk hchunk => ?_,
    fun hs hlater stop next hturn => ?_⟩
  · rw [Field.wordCount]
    omega
  · obtain ⟨n, hn, hrange⟩ := h.span_of_integer hk
    rw [hchunk.2.2 n hn]
    exact hrange
  · obtain ⟨n, hn⟩ := Option.isSome_iff_exists.mp (h.span_isSome hlater)
    obtain ⟨_, hdeclared⟩ := h.span_of_free hs
    rw [hn] at hdeclared
    refine ⟨n, hdeclared, ?_⟩
    -- The field is not the last one, so its end is the sum of cursor and span.
    obtain ⟨hstop, _⟩ := Field.turn?_eq_some_iff.mp hturn
    rw [Field.stop?, if_neg (by simpa using hlater), hn, Option.getD_some] at hstop
    split at hstop
    · exact (Option.some.inj hstop).symm
    · cases hstop

end Segment

namespace Matcher

/-- **Laying out fixes the width of every segment but a free one of open width at the end.**  So
whatever byte sequence is walked over, the cursor stays in it and every turn is safe. -/
theorem attempt_bytes_walks_safely {segments : List Segment} {fields : List Field}
    (h : layout segments = .ok fields) :
    fields.length = segments.length ∧
    (∀ (i : Nat) (s : Segment) (f : Field), segments[i]? = some s → fields[i]? = some f →
      s.IsLaidOutAs (i + 1 = segments.length) f) ∧
    ∀ content, Field.InMemory fields content → ∀ out,
      (∀ o v, contentOf? v = some content →
        attempt o (.bytes fields) v out = Field.walk fields content out) ∧
      ∀ rest cursor mid, Field.Arrives content fields out rest cursor mid →
        cursor ≤ content.length ∧
        ∀ f later, rest = f :: later → ∃ (i : Nat) (s : Segment), segments[i]? = some s ∧
          fields[i]? = some f ∧ later = fields.drop (i + 1) ∧
          s.TurnIsSafe content f later cursor mid := by
  obtain ⟨hlength, hfields⟩ := Segment.field_of_layoutFrom h
  have hlaid : ∀ (i : Nat) (s : Segment) (f : Field), segments[i]? = some s →
      fields[i]? = some f → s.IsLaidOutAs (i + 1 = segments.length) f := by
    intro i s f hs hf
    simpa using Segment.isLaidOutAs_of_field (hfields i s f hs hf)
  have hsegment : ∀ (i : Nat) (f : Field), fields[i]? = some f →
      ∃ s, segments[i]? = some s := by
    intro i f hf
    obtain ⟨hi, _⟩ := List.getElem?_eq_some_iff.mp hf
    exact ⟨segments[i], List.getElem?_eq_getElem (by omega)⟩
  refine ⟨hlength, hlaid, fun content hmem out => ⟨fun o v hv => ?_, ?_⟩⟩
  · have hspan : ∀ f ∈ fields, f.span.getD 0 < 2 ^ 63 := by
      intro f hf
      obtain ⟨i, hi⟩ := List.getElem?_of_mem hf
      obtain ⟨s, hs⟩ := hsegment i f hi
      exact (hlaid i s f hs hi).span_lt (hmem.literal_lt f hf)
    rw [attempt, hv]
    exact (Field.walk_eq_attemptAll hmem.content_lt hspan out).symm
  · intro rest cursor mid harrives
    refine ⟨harrives.cursor_le, ?_⟩
    rintro f later rfl
    obtain ⟨i, hi⟩ := harrives.exists_drop
    -- The field whose turn it is has a number, and with it a segment.
    have hf : fields[i]? = some f := by
      rw [← List.head?_drop, ← hi]
      rfl
    have hlater : later = fields.drop (i + 1) := by
      rw [← List.tail_drop, ← hi]
      rfl
    obtain ⟨s, hs⟩ := hsegment i f hf
    have hlast : (i + 1 = segments.length) = (later = []) := by
      obtain ⟨hlt, _⟩ := List.getElem?_eq_some_iff.mp hf
      rw [hlater, List.drop_eq_nil_iff, eq_iff_iff]
      omega
    exact ⟨i, s, hs, hf, hlater, (hlast ▸ hlaid i s f hs hf).turnIsSafe
      (hmem.literal_lt f (List.mem_of_getElem? hf)) hmem.content_lt harrives.cursor_le mid⟩

/-- A tag of two bytes, a number of one byte, and the rest as text. -/
def taggedNumber : List Segment :=
  [⟨some (.int 1), .integer, some 16, none, []⟩, ⟨none, .integer, none, none, []⟩,
    ⟨none, .binary, none, none, []⟩]

/-- The number is an integer of one byte, the text is open. -/
def taggedNumberLayout : List Field :=
  [⟨.integer, some 2, some [0, 1], false, .big⟩, ⟨.integer, some 1, none, false, .big⟩,
    ⟨.binary, none, none, false, .big⟩]

/-- After the tag it is the turn of the number, two bytes from the beginning. -/
theorem attempt_bytes_walks_safely_tagged :
    layout taggedNumber = .ok taggedNumberLayout ∧
    Field.InMemory taggedNumberLayout [0, 1, 3, 97, 98] ∧
    attempt .start (.bytes taggedNumberLayout) (.bytes [0, 1, 3, 97, 98]) .empty =
      Field.walk taggedNumberLayout [0, 1, 3, 97, 98] .empty ∧
    Field.Arrives [0, 1, 3, 97, 98] taggedNumberLayout .empty (taggedNumberLayout.drop 1) 2
      .empty ∧
    ∃ (i : Nat) (s : Segment), taggedNumber[i]? = some s ∧
      s.TurnIsSafe [0, 1, 3, 97, 98] ⟨.integer, some 1, none, false, .big⟩
        (taggedNumberLayout.drop 2) 2 .empty := by
  have hlayout : layout taggedNumber = .ok taggedNumberLayout := rfl
  have hmem : Field.InMemory taggedNumberLayout [0, 1, 3, 97, 98] := by
    refine ⟨by decide, ?_⟩
    simp [taggedNumberLayout]
  have harrives : Field.Arrives [0, 1, 3, 97, 98] taggedNumberLayout .empty
      (taggedNumberLayout.drop 1) 2 .empty := .turn .start rfl
  obtain ⟨_, _, hwalks⟩ := attempt_bytes_walks_safely hlayout
  obtain ⟨hsame, hturns⟩ := hwalks _ hmem .empty
  obtain ⟨_, hturn⟩ := hturns _ _ _ harrives
  obtain ⟨i, s, hs, _, _, hsafe⟩ := hturn _ _ rfl
  exact ⟨hlayout, hmem, hsame .start _ rfl, harrives, i, s, hs, hsafe⟩

end Matcher

end StructuralMatching
