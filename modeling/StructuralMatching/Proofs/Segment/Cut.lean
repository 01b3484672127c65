/-
Byte sequences cut along segments.

A cut gives every segment a piece of the byte sequence: pieces follow each other without gaps, and
each of them suits its segment.

* `Segment.Suits` — a piece has the declared width, is the encoding of the literal, and stands for
  something if the segment is free;
* `Segment.IsCut` — pieces that make up a byte sequence and suit the segments one by one;
* `Segment.readings` — what the pieces of the free segments stand for;
* `Segment.sites?` — the same found out from the left, a segment at a time;
* `Segment.isCut_unique` — there is at most one cut;
* `Matcher.attempt_bytes_iff_isCut` — a layout matches exactly the byte sequences that have a cut.

Design notes: a segment that can be laid out has a fixed width unless it is free and the last one.
This is what makes the cut unique, and what lets a cursor find it without looking ahead.
-/
import Mathlib.Data.List.Forall2
import StructuralMatching.Matcher
import StructuralMatching.Proofs.Matching.Reconciliation

namespace StructuralMatching

theorem bind_eq_ok_iff {ε α β : Type} {x : Except ε α} {f : α → Except ε β} {b : β} :
    (x >>= f) = .ok b ↔ ∃ a, x = .ok a ∧ f a = .ok b := by
  cases x with
  | error e =>
    refine iff_of_false (fun h => nomatch h) ?_
    rintro ⟨a, ha, _⟩
    cases ha
  | ok a =>
    constructor
    · intro h
      exact ⟨a, rfl, h⟩
    · rintro ⟨a', ha, h⟩
      cases ha
      exact h

namespace Segment

/-! ### Segments that can be laid out -/

/-- The segment as a field of the declared width, without its literal. -/
def blank (s : Segment) : Field := ⟨s.kind, s.declaredSpan.toOption.join, none, s.isSigned, s.order⟩

/-- The bytes of the literal, if there is one and it has bytes. -/
def encoding? (s : Segment) : Option (List UInt8) :=
  s.literal.bind fun value => (s.blank.encode value).toOption

/-- The width in bytes, if it is fixed: that of the literal, or else the declared one. -/
def width? (s : Segment) : Option Nat :=
  match s.literal with
  | some _ => s.encoding?.map List.length
  | none => s.blank.span

theorem span_blank {s : Segment} {span : Option Nat} (h : s.declaredSpan = .ok span) :
    s.blank.span = span := by
  show s.declaredSpan.toOption.join = span
  rw [h]
  rfl

theorem blank_eq {s : Segment} {span : Option Nat} (h : s.declaredSpan = .ok span) :
    s.blank = ⟨s.kind, span, none, s.isSigned, s.order⟩ := by
  rw [← span_blank h]
  rfl

/-- A free segment keeps its declared width, and is the last one if it has none. -/
theorem field_of_free {s : Segment} {isLast : Bool} {f : Field} (hs : s.literal = none)
    (h : s.field isLast = .ok f) : f = s.blank ∧ (isLast = false → f.span.isSome) := by
  obtain ⟨span, hspan, h⟩ := bind_eq_ok_iff.mp h
  rw [hs] at h
  rw [blank_eq hspan]
  simp only [freeField] at h
  split at h
  · cases h
  · rename_i hopen
    have hf : f = ⟨s.kind, span, none, s.isSigned, s.order⟩ := by
      split at h
      · obtain ⟨_, _, h⟩ := bind_eq_ok_iff.mp h
        cases h
        rfl
      · cases h
        rfl
    subst hf
    refine ⟨rfl, fun hlast => ?_⟩
    cases span with
    | none => rw [hlast] at hopen; exact absurd rfl hopen
    | some n => rfl

/-- A literal segment gets the width of its bytes, which is the declared one if there is one. -/
theorem field_of_literal {s : Segment} {isLast : Bool} {f : Field} {value : Value}
    (hs : s.literal = some value) (h : s.field isLast = .ok f) :
    ∃ content, s.blank.encode value = .ok content ∧
      f = { s.blank with span := some content.length, literal := some content } ∧
      ∀ n, s.blank.span = some n → content.length = n := by
  obtain ⟨span, hspan, h⟩ := bind_eq_ok_iff.mp h
  rw [hs] at h
  rw [blank_eq hspan]
  obtain ⟨content, hcontent, h⟩ := bind_eq_ok_iff.mp h
  refine ⟨content, hcontent, ?_⟩
  split at h
  · cases h
  · rename_i hwidth
    cases h
    refine ⟨rfl, fun n hn => ?_⟩
    by_contra hne
    exact hwidth (by rw [show span = some n from hn]; simpa using Ne.symm hne)

/-- The width of a field is the fixed width of its segment. -/
theorem span_field {s : Segment} {isLast : Bool} {f : Field} (h : s.field isLast = .ok f) :
    f.span = s.width? := by
  cases hs : s.literal with
  | none => rw [(field_of_free hs h).1, width?, hs]
  | some value =>
    obtain ⟨content, hcontent, rfl, _⟩ := field_of_literal hs h
    rw [width?, hs, encoding?, hs, Option.bind_some, hcontent]
    rfl

theorem width?_isSome {s : Segment} {f : Field} (h : s.field false = .ok f) :
    ∃ n, s.width? = some n := by
  rw [← Option.isSome_iff_exists, ← span_field h]
  cases hs : s.literal with
  | none => exact (field_of_free hs h).2 rfl
  | some value =>
    obtain ⟨content, _, rfl, _⟩ := field_of_literal hs h
    rfl

theorem layoutFrom_cons {i : Nat} {s : Segment} {rest : List Segment} {fields : List Field}
    (h : layoutFrom i (s :: rest) = .ok fields) :
    ∃ f more, s.field rest.isEmpty = .ok f ∧ layoutFrom (i + 1) rest = .ok more ∧
      fields = f :: more := by
  rw [layoutFrom] at h
  split at h
  · cases h
  · rename_i f hf
    split at h
    · cases h
    · rename_i more hmore
      cases h
      exact ⟨f, more, hf, hmore, rfl⟩

theorem isEmpty_layoutFrom {i : Nat} {segments : List Segment} {fields : List Field}
    (h : layoutFrom i segments = .ok fields) : fields.isEmpty = segments.isEmpty := by
  cases segments with
  | nil => cases h; rfl
  | cons s rest =>
    obtain ⟨f, more, _, _, rfl⟩ := layoutFrom_cons h
    rfl

/-! ### What the pieces bind, found out from the left -/

/-- The site of a piece: that of its reading if the segment is free.  A literal binds nothing. -/
def siteOf? (s : Segment) (chunk : List UInt8) : Option (List Site) :=
  match s.literal with
  | some _ => if s.encoding? = some chunk then some [] else none
  | none => (s.blank.decode? chunk).map fun value => [.unnamed value]

/-- The sites of a byte sequence from which pieces of the fixed widths are cut off one after the
other; a segment without such a width takes all that is left. -/
def sites? : List Segment → List UInt8 → Option (List Site)
  | [], content => if content = [] then some [] else none
  | s :: rest, content =>
    let width := s.width?.getD content.length
    if content.length < width then none
    else (s.siteOf? (content.take width)).bind fun sites =>
      (sites? rest (content.drop width)).map fun more => sites ++ more

theorem realizes_attempt {s : Segment} {isLast : Bool} {f : Field} (h : s.field isLast = .ok f)
    {chunk : List UInt8} (hw : ∀ n, s.width? = some n → chunk.length = n) (out : Bindings) :
    out.Realizes (s.siteOf? chunk) (f.attempt chunk out) := by
  have hspan : f.span.any (· != chunk.length) = false := by
    rw [span_field h]
    cases hn : s.width? with
    | none => rfl
    | some n => simp [hw n hn]
  rw [Field.attempt, hspan, siteOf?]
  cases hs : s.literal with
  | none =>
    obtain ⟨rfl, _⟩ := field_of_free hs h
    show out.Realizes ((s.blank.decode? chunk).map fun value => [.unnamed value])
      (match s.blank.decode? chunk with
      | some value => (true, out.push value)
      | none => (false, out))
    cases s.blank.decode? chunk with
    | none => rfl
    | some value => rfl
  | some value =>
    obtain ⟨content, hcontent, rfl, _⟩ := field_of_literal hs h
    have henc : s.encoding? = some content := by
      rw [encoding?, hs, Option.bind_some, hcontent]
      rfl
    show out.Realizes (if s.encoding? = some chunk then some [] else none)
      (content == chunk, out)
    rw [henc]
    by_cases heq : content = chunk
    · subst heq
      rw [if_pos rfl, beq_self_eq_true]
      rfl
    · rw [if_neg fun h => heq (Option.some.inj h), beq_false_of_ne heq]
      rfl

/-- A segment of fixed width has no sites in longer or shorter byte sequences. -/
theorem sites?_singleton_of_ne {s : Segment} {n : Nat} (hn : s.width? = some n)
    {content : List UInt8} (h : content.length ≠ n) : sites? [s] content = none := by
  rw [sites?, hn, Option.getD_some]
  by_cases hlen : content.length < n
  · exact if_pos hlen
  · have hdrop : content.drop n ≠ [] := by
      rw [Ne, List.drop_eq_nil_iff]
      omega
    show (if content.length < n then none else _) = none
    rw [if_neg hlen, sites?, if_neg hdrop]
    cases s.siteOf? (content.take n) with
    | none => rfl
    | some sites => rfl

theorem attemptAll_singleton_of_ne {f : Field} {n : Nat} (hf : f.span = some n)
    {content : List UInt8} (hne : n ≠ content.length) (out : Bindings) :
    (Field.attemptAll [f] content out).1 = false := by
  have hfail : f.attempt content out = (false, out) := by
    rw [Field.attempt, hf, if_pos (by simpa using hne)]
  rw [Field.attemptAll]
  simp only [List.isEmpty_nil, if_true, Nat.lt_irrefl, if_false, List.take_length, hfail]

/-- Cutting along a layout binds the sites of the byte sequence. -/
theorem realizes_attemptAll {i : Nat} {segments : List Segment} {fields : List Field}
    (h : layoutFrom i segments = .ok fields) (content : List UInt8) (out : Bindings) :
    out.Realizes (sites? segments content) (Field.attemptAll fields content out) := by
  induction segments generalizing i fields content out with
  | nil =>
    cases h
    cases content with
    | nil => rfl
    | cons b bs => rfl
  | cons s rest ih =>
    obtain ⟨f, more, hf, hmore, rfl⟩ := layoutFrom_cons h
    by_cases hwidth : (if rest.isEmpty then content.length else s.width?.getD 0) =
        s.width?.getD content.length
    · rw [Field.attemptAll, sites?, isEmpty_layoutFrom hmore, span_field hf]
      simp only [hwidth]
      split
      · rfl
      · rename_i hlen
        refine Bindings.Realizes.andThen (realizes_attempt hf (fun n hn => ?_) out)
          fun mid => ih hmore _ mid
        rw [hn, Option.getD_some] at hlen
        rw [hn, Option.getD_some, List.length_take]
        omega
    · -- Only the last piece may differ in length from the fixed width of its segment.
      cases rest with
      | cons next rest =>
        obtain ⟨n, hn⟩ := width?_isSome hf
        rw [hn] at hwidth
        exact absurd rfl hwidth
      | nil =>
        cases hn : s.width? with
        | none => rw [hn] at hwidth; exact absurd rfl hwidth
        | some n =>
          rw [hn] at hwidth
          replace hwidth : content.length ≠ n := hwidth
          rw [sites?_singleton_of_ne hn hwidth]
          cases hmore
          exact attemptAll_singleton_of_ne ((span_field hf).trans hn) (Ne.symm hwidth) out

/-! ### Cuts -/

/-- A piece of a byte sequence suits a segment. -/
structure Suits (s : Segment) (chunk : List UInt8) : Prop where
  /-- It has the declared width. -/
  length_eq : ∀ n, s.declaredSpan = .ok (some n) → chunk.length = n
  /-- It is what the literal is encoded as. -/
  encode_eq : ∀ value, s.literal = some value → s.blank.encode value = .ok chunk
  /-- It stands for something if the segment is free. -/
  decode_isSome : s.literal = none → (s.blank.decode? chunk).isSome

/-- Pieces that make up a byte sequence, one for every segment, and suit the segments. -/
def IsCut (segments : List Segment) (content : List UInt8) (chunks : List (List UInt8)) : Prop :=
  chunks.flatten = content ∧ List.Forall₂ Suits segments chunks

/-- What a piece stands for, if its segment is free. -/
def reading? (s : Segment) (chunk : List UInt8) : Option Value :=
  match s.literal with
  | some _ => none
  | none => s.blank.decode? chunk

/-- What the pieces of the free segments stand for, in order. -/
def readings (segments : List Segment) (chunks : List (List UInt8)) : List Value :=
  (segments.zip chunks).filterMap fun pair => pair.1.reading? pair.2

theorem encoding?_eq_some_iff {s : Segment} {chunk : List UInt8} :
    s.encoding? = some chunk ↔
      ∃ value, s.literal = some value ∧ s.blank.encode value = .ok chunk := by
  rw [encoding?, Option.bind_eq_some_iff]
  refine exists_congr fun value => and_congr_right fun _ => ?_
  cases s.blank.encode value with
  | error e => exact iff_of_false (fun h => nomatch h) fun h => nomatch h
  | ok content => exact ⟨fun h => by cases h; rfl, fun h => by cases h; rfl⟩

/-- A piece suits a segment if it has the width, where that is fixed, and a site, or as a literal
none to bind. -/
theorem suits_iff {s : Segment} {isLast : Bool} {f : Field} (h : s.field isLast = .ok f)
    (chunk : List UInt8) :
    s.Suits chunk ↔ (∀ n, s.width? = some n → chunk.length = n) ∧
      s.siteOf? chunk = some ((s.reading? chunk).toList.map .unnamed) := by
  obtain ⟨span, hspan, _⟩ := bind_eq_ok_iff.mp h
  cases hs : s.literal with
  | none =>
    -- A free segment has its declared width and nothing else to compare with.
    have hwidth : s.width? = span := by rw [width?, hs]; exact span_blank hspan
    rw [hwidth, siteOf?, reading?, hs]
    constructor
    · intro hsuits
      refine ⟨fun n hn => hsuits.length_eq n (by rw [hspan, hn]), ?_⟩
      obtain ⟨value, hvalue⟩ := Option.isSome_iff_exists.mp (hsuits.decode_isSome hs)
      show (s.blank.decode? chunk).map _ = _
      rw [hvalue]
      rfl
    · rintro ⟨hlen, hsite⟩
      refine ⟨fun n hn => hlen n ?_, fun value hv => ?_, fun _ => ?_⟩
      · rw [hspan] at hn
        cases hn
        rfl
      · rw [hs] at hv
        cases hv
      · cases hd : s.blank.decode? chunk with
        | some value => rfl
        | none => rw [hd] at hsite; cases hsite
  | some value =>
    -- The bytes of a literal have the declared width, so to be equal to them is enough.
    obtain ⟨content, hcontent, _, hdeclared⟩ := field_of_literal hs h
    have henc : s.encoding? = some content := encoding?_eq_some_iff.mpr ⟨value, hs, hcontent⟩
    rw [width?, siteOf?, reading?, hs, henc]
    constructor
    · intro hsuits
      have heq : content = chunk := by
        have := hsuits.encode_eq value hs
        rw [hcontent] at this
        cases this
        rfl
      subst heq
      exact ⟨fun n hn => Option.some.inj hn, if_pos rfl⟩
    · rintro ⟨_, hsite⟩
      have heq : content = chunk := by
        by_contra hne
        simp only [Option.some.injEq, hne, if_false] at hsite
        cases hsite
      subst heq
      refine ⟨fun n hn => ?_, fun v hv => ?_, fun hfree => ?_⟩
      · exact hdeclared n (span_blank hn)
      · rw [hs] at hv
        cases hv
        exact hcontent
      · rw [hs] at hfree
        cases hfree

theorem siteOf?_eq_some {s : Segment} {chunk : List UInt8} {sites : List Site}
    (h : s.siteOf? chunk = some sites) : sites = (s.reading? chunk).toList.map .unnamed := by
  rw [siteOf?] at h
  rw [reading?]
  cases hs : s.literal with
  | some value =>
    simp only [hs] at h
    split at h
    · cases h
      rfl
    · cases h
  | none =>
    simp only [hs] at h
    obtain ⟨value, hvalue, rfl⟩ := Option.map_eq_some_iff.mp h
    show _ = (s.blank.decode? chunk).toList.map Site.unnamed
    rw [hvalue]
    rfl

theorem readings_cons (s : Segment) (rest : List Segment) (chunk : List UInt8)
    (chunks : List (List UInt8)) :
    readings (s :: rest) (chunk :: chunks) =
      (s.reading? chunk).toList ++ readings rest chunks := by
  rw [readings, List.zip_cons_cons]
  cases hr : s.reading? chunk with
  | none => exact List.filterMap_cons_none hr
  | some value => exact List.filterMap_cons_some hr

theorem isCut_nil_iff {content : List UInt8} {chunks : List (List UInt8)} :
    IsCut [] content chunks ↔ chunks = [] ∧ content = [] := by
  constructor
  · rintro ⟨rfl, h⟩
    cases h
    exact ⟨rfl, rfl⟩
  · rintro ⟨rfl, rfl⟩
    exact ⟨rfl, .nil⟩

theorem isCut_cons_iff {s : Segment} {rest : List Segment} {content : List UInt8}
    {chunks : List (List UInt8)} :
    IsCut (s :: rest) content chunks ↔ ∃ chunk left more, content = chunk ++ left ∧
      chunks = chunk :: more ∧ s.Suits chunk ∧ IsCut rest left more := by
  constructor
  · rintro ⟨rfl, h⟩
    obtain ⟨chunk, more, hsuits, hmore, rfl⟩ := List.forall₂_cons_left_iff.mp h
    exact ⟨chunk, more.flatten, more, List.flatten_cons, rfl, hsuits, rfl, hmore⟩
  · rintro ⟨chunk, left, more, rfl, rfl, hsuits, rfl, hmore⟩
    exact ⟨List.flatten_cons, .cons hsuits hmore⟩

/-- The first piece of a cut has the fixed width of its segment, or is all there is. -/
theorem length_first_of_isCut {i : Nat} {s : Segment} {rest : List Segment} {fields : List Field}
    (h : layoutFrom i (s :: rest) = .ok fields) {chunk left : List UInt8}
    {more : List (List UInt8)} (hsuits : s.Suits chunk) (hmore : IsCut rest left more) :
    chunk.length = s.width?.getD (chunk ++ left).length := by
  obtain ⟨f, _, hf, _, _⟩ := layoutFrom_cons h
  cases hn : s.width? with
  | some n => exact ((suits_iff hf chunk).mp hsuits).1 n hn
  | none =>
    cases rest with
    | nil =>
      obtain ⟨_, rfl⟩ := isCut_nil_iff.mp hmore
      rw [List.append_nil, Option.getD_none]
    | cons next rest =>
      obtain ⟨n, hn'⟩ := width?_isSome hf
      rw [hn] at hn'
      cases hn'

/-- **There is at most one cut** of a byte sequence along segments that can be laid out. -/
theorem isCut_unique {i : Nat} {segments : List Segment} {fields : List Field}
    (h : layoutFrom i segments = .ok fields) {content : List UInt8}
    {chunks chunks' : List (List UInt8)} (hc : IsCut segments content chunks)
    (hc' : IsCut segments content chunks') : chunks' = chunks := by
  induction segments generalizing i fields content chunks chunks' with
  | nil => rw [(isCut_nil_iff.mp hc).1, (isCut_nil_iff.mp hc').1]
  | cons s rest ih =>
    obtain ⟨chunk, left, more, rfl, rfl, hsuits, hmore⟩ := isCut_cons_iff.mp hc
    obtain ⟨chunk', left', more', heq, rfl, hsuits', hmore'⟩ := isCut_cons_iff.mp hc'
    -- Both first pieces have the one length that is possible, so they are the same.
    have hlen := length_first_of_isCut h hsuits hmore
    have hlen' := length_first_of_isCut h hsuits' hmore'
    rw [← heq, ← hlen] at hlen'
    obtain ⟨rfl, rfl⟩ := List.append_inj heq hlen'.symm
    obtain ⟨_, _, _, hrest, _⟩ := layoutFrom_cons h
    rw [ih hrest hmore hmore']

/-- The sites found from the left are the readings of a cut. -/
theorem sites?_eq_some_iff {i : Nat} {segments : List Segment} {fields : List Field}
    (h : layoutFrom i segments = .ok fields) {content : List UInt8} {sites : List Site} :
    sites? segments content = some sites ↔ ∃ chunks, IsCut segments content chunks ∧
      sites = (readings segments chunks).map .unnamed := by
  induction segments generalizing i fields content sites with
  | nil =>
    rw [sites?]
    constructor
    · intro hs
      split at hs
      · rename_i hnil
        cases hs
        exact ⟨[], isCut_nil_iff.mpr ⟨rfl, hnil⟩, rfl⟩
      · cases hs
    · rintro ⟨chunks, hc, rfl⟩
      obtain ⟨rfl, rfl⟩ := isCut_nil_iff.mp hc
      rfl
  | cons s rest ih =>
    obtain ⟨f, _, hf, hrest, _⟩ := layoutFrom_cons h
    rw [sites?]
    constructor
    · intro hs
      split at hs
      · cases hs
      · rename_i hlen
        obtain ⟨first, hfirst, hs⟩ := Option.bind_eq_some_iff.mp hs
        obtain ⟨others, hothers, rfl⟩ := Option.map_eq_some_iff.mp hs
        obtain ⟨more, hmore, rfl⟩ := (ih hrest).mp hothers
        obtain rfl := siteOf?_eq_some hfirst
        refine ⟨content.take _ :: more, isCut_cons_iff.mpr
          ⟨_, _, more, (List.take_append_drop _ content).symm, rfl, ?_, hmore⟩, ?_⟩
        · refine (suits_iff hf _).mpr ⟨fun n hn => ?_, hfirst⟩
          rw [hn, Option.getD_some] at hlen ⊢
          rw [List.length_take]
          omega
        · rw [readings_cons, List.map_append]
    · rintro ⟨chunks, hc, rfl⟩
      obtain ⟨chunk, left, more, rfl, rfl, hsuits, hmore⟩ := isCut_cons_iff.mp hc
      have hlen := length_first_of_isCut h hsuits hmore
      have hothers := (ih hrest).mpr ⟨more, hmore, rfl⟩
      simp only [← hlen, List.take_left, List.drop_left, ((suits_iff hf chunk).mp hsuits).2,
        hothers, Option.bind_some, Option.map_some, readings_cons, List.map_append]
      rw [if_neg (by rw [List.length_append]; omega)]

/-- Every free segment has one reading. -/
theorem length_readings {segments : List Segment} {content : List UInt8}
    {chunks : List (List UInt8)} (h : IsCut segments content chunks) :
    (readings segments chunks).length = segments.countP fun s => s.literal.isNone := by
  induction segments generalizing content chunks with
  | nil => rfl
  | cons s rest ih =>
    obtain ⟨chunk, left, more, rfl, rfl, hsuits, hmore⟩ := isCut_cons_iff.mp h
    rw [readings_cons, List.length_append, ih hmore, List.countP_cons, Nat.add_comm]
    congr 1
    rw [reading?]
    cases hs : s.literal with
    | some value => rfl
    | none =>
      obtain ⟨value, hvalue⟩ := Option.isSome_iff_exists.mp (hsuits.decode_isSome hs)
      show (s.blank.decode? chunk).toList.length = 1
      rw [hvalue]
      rfl

end Segment

namespace Matcher

theorem contentOf?_eq_some_iff {v : Value} {content : List UInt8} :
    contentOf? v = some content ↔
      v = .bytes content ∨ ∃ s, v = .string s ∧ content = Text.utf8 s := by
  constructor
  · intro h
    cases v <;> cases h
    · exact .inr ⟨_, rfl, rfl⟩
    · exact .inl rfl
  · rintro (rfl | ⟨s, rfl, rfl⟩) <;> rfl

theorem realizes_attempt_bytes {segments : List Segment} {fields : List Field}
    (h : layout segments = .ok fields) (o : Occasion) (v : Value) (out : Bindings) :
    out.Realizes ((contentOf? v).bind (Segment.sites? segments))
      (attempt o (.bytes fields) v out) := by
  rw [attempt]
  cases contentOf? v with
  | none => rfl
  | some content => exact Segment.realizes_attemptAll h content out

theorem attempt_bytes_of_isCut {segments : List Segment} {fields : List Field}
    (h : layout segments = .ok fields) (o : Occasion) {v : Value} {content : List UInt8}
    (hv : contentOf? v = some content) {chunks : List (List UInt8)}
    (hc : Segment.IsCut segments content chunks) (out : Bindings) :
    attempt o (.bytes fields) v out =
      out.record ((Segment.readings segments chunks).map Site.unnamed) := by
  have hr := realizes_attempt_bytes h o v out
  rw [hv, Option.bind_some, (Segment.sites?_eq_some_iff h).mpr ⟨chunks, hc, rfl⟩] at hr
  exact hr

theorem fst_attempt_bytes_iff {segments : List Segment} {fields : List Field}
    (h : layout segments = .ok fields) (o : Occasion) {v : Value} {content : List UInt8}
    (hv : contentOf? v = some content) (out : Bindings) :
    (attempt o (.bytes fields) v out).1 = true ↔
      ∃ chunks, Segment.IsCut segments content chunks := by
  constructor
  · intro hok
    have hr := realizes_attempt_bytes h o v out
    rw [hv, Option.bind_some] at hr
    obtain ⟨sites, hsites, _⟩ := hr.fst_iff.mp hok
    obtain ⟨chunks, hc, _⟩ := (Segment.sites?_eq_some_iff h).mp hsites
    exact ⟨chunks, hc⟩
  · rintro ⟨chunks, hc⟩
    -- No name is bound, so nothing can be refused.
    rw [attempt_bytes_of_isCut h o hv hc]
    exact (Bindings.record_unnamed out _).1

/-- **A layout matches exactly the byte sequences that have a cut**, be they given as bytes or as
text.  The cut is unique, and a match binds the readings of the free segments, one each. -/
theorem attempt_bytes_iff_isCut {segments : List Segment} {fields : List Field}
    (h : layout segments = .ok fields) (o : Occasion) (out : Bindings) :
    (∀ v content, (v = .bytes content ∨ ∃ s, v = .string s ∧ content = Text.utf8 s) →
      ((attempt o (.bytes fields) v out).1 = true ↔
        ∃ chunks, Segment.IsCut segments content chunks) ∧
      (segments = [] → ((attempt o (.bytes fields) v out).1 = true ↔ content = [])) ∧
      ∀ chunks, Segment.IsCut segments content chunks →
        (∀ chunks', Segment.IsCut segments content chunks' → chunks' = chunks) ∧
        (attempt o (.bytes fields) v out).2.values =
          out.values ++ Segment.readings segments chunks ∧
        (attempt o (.bytes fields) v out).2.names = out.names ∧
        (Segment.readings segments chunks).length = segments.countP fun s => s.literal.isNone) ∧
    ∀ v, (∀ content, v ≠ .bytes content) → (∀ s, v ≠ .string s) →
      (attempt o (.bytes fields) v out).1 = false := by
  constructor
  · intro v content hv
    have hcontent := contentOf?_eq_some_iff.mpr hv
    have hiff := fst_attempt_bytes_iff h o hcontent out
    refine ⟨hiff, ?_, fun chunks hc => ?_⟩
    · rintro rfl
      rw [hiff]
      constructor
      · rintro ⟨chunks, hc⟩
        exact (Segment.isCut_nil_iff.mp hc).2
      · intro hnil
        exact ⟨[], Segment.isCut_nil_iff.mpr ⟨rfl, hnil⟩⟩
    · obtain ⟨_, hvalues, hnames⟩ :=
        Bindings.record_unnamed out (Segment.readings segments chunks)
      rw [attempt_bytes_of_isCut h o hcontent hc]
      exact ⟨fun chunks' hc' => Segment.isCut_unique h hc hc', hvalues, hnames,
        Segment.length_readings hc⟩
  · intro v hbytes hstring
    have hr := realizes_attempt_bytes h o v out
    have hnone : contentOf? v = none := by
      cases hv : contentOf? v with
      | none => rfl
      | some content =>
        rcases contentOf?_eq_some_iff.mp hv with hb | ⟨s, hs, _⟩
        · exact absurd hb (hbytes content)
        · exact absurd hs (hstring s)
    rw [hnone] at hr
    exact hr

/-- Two bytes that have to be 1, a number of one byte, and the rest as text. -/
def tagged : List Segment :=
  [⟨some (.int 1), .integer, some 16, none, []⟩, ⟨none, .integer, none, none, []⟩,
    ⟨none, .binary, none, none, []⟩]

theorem isCut_tagged : Segment.IsCut tagged [0, 1, 3, 97, 98] [[0, 1], [3], [97, 98]] := by
  refine ⟨rfl, .cons ⟨?_, ?_, nofun⟩ (.cons ⟨?_, nofun, fun _ => rfl⟩
    (.cons ⟨nofun, nofun, fun _ => rfl⟩ .nil))⟩
  · intro n hn
    cases hn
    rfl
  · intro value hvalue
    cases hvalue
    rfl
  · intro n hn
    cases hn
    rfl

/-- Five bytes of which the first two have to be there; the third one is read as a number, and the
last two as text. -/
theorem attempt_bytes_iff_isCut_tagged :
    ∃ fields, layout tagged = .ok fields ∧
      (attempt .start (.bytes fields) (.bytes [0, 1, 3, 97, 98]) .empty).1 = true ∧
      Segment.IsCut tagged [0, 1, 3, 97, 98] [[0, 1], [3], [97, 98]] ∧
      Segment.readings tagged [[0, 1], [3], [97, 98]] = [.int 3, .string "ab"] ∧
      (attempt .start (.bytes fields) (.bytes [0, 1, 3, 97, 98]) .empty).2.values =
        [.int 3, .string "ab"] := by
  have hlayout : layout tagged = .ok _ := rfl
  have hcut := (attempt_bytes_iff_isCut hlayout .start .empty).1
    (.bytes [0, 1, 3, 97, 98]) [0, 1, 3, 97, 98] (.inl rfl)
  refine ⟨_, rfl, hcut.1.mpr ⟨_, isCut_tagged⟩, isCut_tagged, rfl, ?_⟩
  exact (hcut.2.2 _ isCut_tagged).2.1

end Matcher

end StructuralMatching
