/-
Free segments and literal segments as two sides of one format.

After a match every free segment can be given the value it bound as its literal.

* `Segment.pin` — segments with the given values as the literals of those that are free;
* `Segment.pinned` — one of them, with the reading of its piece;
* `Segment.pinnedBytes` — the bytes that it asks for then;
* `Segment.ReadsAscii` — where bytes were read as characters, they are ASCII;
* `Segment.layoutFrom_pinned` — the segments can be laid out again, unless one of them was read as
  text that is not ASCII;
* `Matcher.attempt_bytes_pin` — they match the byte sequence they were read from and no other, or
  do not match it at all.

Design notes: all that a match says about a single segment and its piece is kept in `Rereadable`.
What follows for the list is an induction over the pieces that needs no layout.
-/
import StructuralMatching.Proofs.Matching.Contract
import StructuralMatching.Proofs.Segment.Codec
import StructuralMatching.Proofs.Segment.Cut

namespace StructuralMatching

namespace Segment

/-! ### One segment -/

/-- A free segment that reads every byte as a character. -/
def IsText (s : Segment) : Prop := s.literal = none ∧ s.kind.isBytewise

instance (s : Segment) : Decidable s.IsText :=
  inferInstanceAs (Decidable (s.literal = none ∧ s.kind.isBytewise))

/-- The segment with the reading of a piece as its literal, unless it has one. -/
def pinned (s : Segment) (chunk : List UInt8) : Segment :=
  { s with literal := s.literal <|> s.reading? chunk }

/-- The bytes that the segment asks for after that. -/
def pinnedBytes (s : Segment) (chunk : List UInt8) : List UInt8 :=
  if s.literal.isNone then s.blank.written chunk else chunk

/-- What a match says about a segment and its piece. -/
structure Rereadable (s : Segment) (chunk : List UInt8) : Prop where
  suits : s.Suits chunk
  aligned : ∃ span, s.declaredSpan = .ok span
  ne_float : s.literal = none → s.kind ≠ .float

theorem pinned_of_literal {s : Segment} {value : Value} (hs : s.literal = some value)
    (chunk : List UInt8) : s.pinned chunk = s := by
  obtain ⟨_, kind, size, unit, attributes⟩ := s
  obtain rfl := hs
  rfl

theorem pinned_of_reading {s : Segment} {chunk : List UInt8} {value : Value}
    (hs : s.literal = none) (hv : s.blank.decode? chunk = some value) :
    s.pinned chunk = { s with literal := some value } := by
  rw [pinned, reading?, hs, hv]
  rfl

theorem pinnedBytes_eq_iff {s : Segment} {chunk : List UInt8} :
    s.pinnedBytes chunk = chunk ↔ (s.IsText → Text.IsAscii chunk) := by
  rw [pinnedBytes, IsText]
  cases hs : s.literal with
  | some value =>
    refine iff_of_true rfl fun h => ?_
    cases h.1
  | none => exact Field.written_eq_iff.trans ⟨fun h htext => h htext.2, fun h hb => h ⟨rfl, hb⟩⟩

theorem length_le_pinnedBytes (s : Segment) (chunk : List UInt8) :
    chunk.length ≤ (s.pinnedBytes chunk).length := by
  rw [pinnedBytes]
  split
  · exact s.blank.length_le_written chunk
  · exact Nat.le_refl _

theorem length_lt_pinnedBytes {s : Segment} {chunk : List UInt8} (htext : s.IsText)
    (h : ¬Text.IsAscii chunk) : chunk.length < (s.pinnedBytes chunk).length := by
  rw [pinnedBytes, htext.1]
  exact Field.length_lt_written htext.2 h

/-- Integers have a size even if none is given. -/
theorem span_of_integer {s : Segment} {span : Option Nat} (hk : s.kind = .integer)
    (h : s.declaredSpan = .ok span) : ∃ n, span = some n := by
  have hbits : ∃ bits, s.bitWidth? = some bits := by
    rw [bitWidth?, hk]
    cases s.size <;> exact ⟨_, rfl⟩
  obtain ⟨bits, hbits⟩ := hbits
  rw [declaredSpan, hbits] at h
  replace h : (if bits % 8 = 0 then Except.ok (some (bits / 8).toNat)
    else Except.error (SegmentError.unaligned bits)) = Except.ok span := h
  split at h
  · cases h
    exact ⟨_, rfl⟩
  · cases h

namespace Rereadable

variable {s : Segment} {chunk : List UInt8}

/-- The literal that a segment has in the end is written as `pinnedBytes`. -/
theorem encode_pinned (h : s.Rereadable chunk) : ∃ value, (s.pinned chunk).literal = some value ∧
    s.blank.encode value = .ok (s.pinnedBytes chunk) ∧
    (s.IsText → value.typeName = "string") := by
  cases hs : s.literal with
  | some value =>
    refine ⟨value, by rw [pinned_of_literal hs, hs], ?_, fun htext => ?_⟩
    · rw [pinnedBytes, hs]
      exact h.suits.encode_eq value hs
    · rw [htext.1] at hs
      cases hs
  | none =>
    obtain ⟨value, hv⟩ := Option.isSome_iff_exists.mp (h.suits.decode_isSome hs)
    refine ⟨value, by rw [pinned_of_reading hs hv], ?_, fun htext => ?_⟩
    · rw [pinnedBytes, hs]
      refine Field.encode_of_decode? (h.ne_float hs) (fun hk => ?_) hv
      obtain ⟨span, hspan⟩ := h.aligned
      obtain ⟨n, rfl⟩ := span_of_integer hk hspan
      rw [span_blank hspan, h.suits.length_eq n hspan]
    · have hread := Field.decode?_of_isBytewise (f := s.blank) htext.2 chunk
      rw [hread] at hv
      cases hv
      rfl

theorem eq_of_suits_pinned (h : s.Rereadable chunk) {chunk' : List UInt8}
    (hsuits : (s.pinned chunk).Suits chunk') : chunk' = s.pinnedBytes chunk := by
  obtain ⟨value, hvalue, hencode, _⟩ := h.encode_pinned
  have heq : s.blank.encode value = .ok chunk' := hsuits.encode_eq value hvalue
  rw [hencode] at heq
  cases heq
  rfl

theorem suits_pinned (h : s.Rereadable chunk) (heq : s.pinnedBytes chunk = chunk) :
    (s.pinned chunk).Suits chunk := by
  obtain ⟨value, hvalue, hencode, _⟩ := h.encode_pinned
  refine ⟨h.suits.length_eq, fun value' hvalue' => ?_, fun hfree => ?_⟩
  · rw [hvalue] at hvalue'
    cases hvalue'
    rw [heq] at hencode
    exact hencode
  · rw [hvalue] at hfree
    cases hfree

end Rereadable

/-- A literal can be laid out if its bytes have the declared width. -/
theorem field_of_encode {s : Segment} {span : Option Nat} {value : Value} {content : List UInt8}
    (hs : s.literal = some value) (hspan : s.declaredSpan = .ok span)
    (hcontent : s.blank.encode value = .ok content) (isLast : Bool) :
    s.field isLast =
      if span.any (· != content.length) then .error (.invalidLiteral s.kind value.typeName)
      else .ok { s.blank with span := some content.length, literal := some content } := by
  rw [blank_eq hspan] at hcontent ⊢
  rw [field, hspan, hs]
  show s.literalField value span = _
  rw [literalField]
  simp only [hcontent]
  show (if _ then _ else _) = _
  split <;> rfl

theorem Rereadable.field_pinned {s : Segment} {chunk : List UInt8} (h : s.Rereadable chunk)
    (isLast : Bool) :
    (∃ f, (s.pinned chunk).field isLast = .ok f) ∨ s.IsText ∧ ¬Text.IsAscii chunk ∧
      (s.pinned chunk).field isLast = .error (.invalidLiteral s.kind "string") := by
  obtain ⟨span, hspan⟩ := h.aligned
  obtain ⟨value, hvalue, hencode, hname⟩ := h.encode_pinned
  have hfield := field_of_encode (s := s.pinned chunk) hvalue hspan hencode isLast
  by_cases heq : s.pinnedBytes chunk = chunk
  · -- The piece has the declared width.
    left
    rw [hfield, heq, if_neg]
    · exact ⟨_, rfl⟩
    · cases span with
      | none => exact Bool.false_ne_true
      | some n => simp [h.suits.length_eq n hspan]
  · rw [pinnedBytes_eq_iff, Classical.not_imp] at heq
    rw [hfield]
    split
    · right
      rw [hname heq.1]
      exact ⟨heq.1, heq.2, rfl⟩
    · exact .inl ⟨_, rfl⟩

/-! ### Lists of segments -/

/-- The free segments get the values as their literals, in order. -/
def pin : List Segment → List Value → List Segment
  | [], _ => []
  | s :: rest, values =>
    match s.literal with
    | some _ => s :: pin rest values
    | none => { s with literal := values.head? } :: pin rest values.tail

/-- Where bytes were read as characters of their own, they are ASCII. -/
def ReadsAscii (segments : List Segment) (chunks : List (List UInt8)) : Prop :=
  ∀ pair ∈ segments.zip chunks, pair.1.IsText → Text.IsAscii pair.2

instance (segments : List Segment) (chunks : List (List UInt8)) :
    Decidable (ReadsAscii segments chunks) :=
  inferInstanceAs (Decidable (∀ pair ∈ segments.zip chunks, pair.1.IsText → Text.IsAscii pair.2))

theorem readsAscii_cons_iff {s : Segment} {rest : List Segment} {chunk : List UInt8}
    {more : List (List UInt8)} : ReadsAscii (s :: rest) (chunk :: more) ↔
      (s.IsText → Text.IsAscii chunk) ∧ ReadsAscii rest more := by
  rw [ReadsAscii, List.zip_cons_cons, List.forall_mem_cons]
  rfl

theorem forall₂_rereadable {i : Nat} {segments : List Segment} {fields : List Field}
    (h : layoutFrom i segments = .ok fields)
    (hfloat : ∀ s ∈ segments, s.literal = none → s.kind ≠ .float) {content : List UInt8}
    {chunks : List (List UInt8)} (hc : IsCut segments content chunks) :
    List.Forall₂ Rereadable segments chunks := by
  induction segments generalizing i fields content chunks with
  | nil =>
    obtain ⟨rfl, _⟩ := isCut_nil_iff.mp hc
    exact .nil
  | cons s rest ih =>
    obtain ⟨f, _, hf, hrest, _⟩ := layoutFrom_cons h
    obtain ⟨span, hspan, _⟩ := bind_eq_ok_iff.mp hf
    obtain ⟨chunk, _, more, _, rfl, hsuits, hmore⟩ := isCut_cons_iff.mp hc
    refine .cons ⟨hsuits, ⟨span, hspan⟩, hfloat s List.mem_cons_self⟩ ?_
    exact ih hrest (fun s' hs' => hfloat s' (List.mem_cons_of_mem s hs')) hmore

section

variable {segments : List Segment} {chunks : List (List UInt8)}

theorem pin_readings (h : List.Forall₂ Rereadable segments chunks) :
    pin segments (readings segments chunks) = List.zipWith pinned segments chunks := by
  induction h with
  | nil => rfl
  | @cons s chunk rest more hs _ ih =>
    rw [readings_cons, pin, List.zipWith_cons_cons, reading?]
    cases hl : s.literal with
    | some value =>
      rw [pinned_of_literal hl]
      exact congrArg (s :: ·) ih
    | none =>
      obtain ⟨value, hv⟩ := Option.isSome_iff_exists.mp (hs.suits.decode_isSome hl)
      rw [pinned_of_reading hl hv]
      simp only [hv, Option.toList_some, List.singleton_append, List.head?_cons, List.tail_cons, ih]

theorem countP_pinned (h : List.Forall₂ Rereadable segments chunks) :
    (List.zipWith pinned segments chunks).countP (fun s => s.literal.isNone) = 0 := by
  induction h with
  | nil => rfl
  | @cons s chunk rest more hs _ ih =>
    obtain ⟨value, hvalue, _⟩ := hs.encode_pinned
    rw [List.zipWith_cons_cons, List.countP_cons, ih, hvalue]
    rfl

/-- Only one list of pieces suits the segments after that. -/
theorem eq_of_forall₂_suits_pinned (h : List.Forall₂ Rereadable segments chunks)
    {chunks' : List (List UInt8)}
    (hc : List.Forall₂ Suits (List.zipWith pinned segments chunks) chunks') :
    chunks' = List.zipWith pinnedBytes segments chunks := by
  induction h generalizing chunks' with
  | nil =>
    cases hc
    rfl
  | cons hs _ ih =>
    obtain ⟨chunk', more', hsuits, hmore, rfl⟩ := List.forall₂_cons_left_iff.mp hc
    rw [List.zipWith_cons_cons, hs.eq_of_suits_pinned hsuits, ih hmore]

theorem forall₂_suits_pinned (h : List.Forall₂ Rereadable segments chunks)
    (hascii : ReadsAscii segments chunks) :
    List.Forall₂ Suits (List.zipWith pinned segments chunks) chunks := by
  induction h with
  | nil => exact .nil
  | cons hs _ ih =>
    rw [readsAscii_cons_iff] at hascii
    exact .cons (hs.suits_pinned (pinnedBytes_eq_iff.mpr hascii.1)) (ih hascii.2)

theorem length_flatten_le (h : List.Forall₂ Rereadable segments chunks) :
    chunks.flatten.length ≤ (List.zipWith pinnedBytes segments chunks).flatten.length := by
  induction h with
  | nil => exact Nat.le_refl _
  | @cons s chunk rest more _ _ ih =>
    rw [List.zipWith_cons_cons, List.flatten_cons, List.flatten_cons, List.length_append,
      List.length_append]
    exact Nat.add_le_add (length_le_pinnedBytes s chunk) ih

/-- If text was read that is not ASCII, the segments ask for more bytes than there were. -/
theorem length_flatten_lt (h : List.Forall₂ Rereadable segments chunks)
    (hnot : ¬ReadsAscii segments chunks) :
    chunks.flatten.length < (List.zipWith pinnedBytes segments chunks).flatten.length := by
  induction h with
  | nil => exact absurd (fun pair hp => nomatch hp) hnot
  | @cons s chunk rest more _ hmore ih =>
    rw [List.zipWith_cons_cons, List.flatten_cons, List.flatten_cons, List.length_append,
      List.length_append]
    rw [readsAscii_cons_iff, not_and_or, Classical.not_imp] at hnot
    rcases hnot with ⟨htext, hchunk⟩ | hrest
    · exact Nat.add_lt_add_of_lt_of_le (length_lt_pinnedBytes htext hchunk)
        (length_flatten_le hmore)
    · exact Nat.add_lt_add_of_le_of_lt (length_le_pinnedBytes s chunk) (ih hrest)

/-- **Segments can be laid out with their readings as literals**, unless one of them was read as
text that is not ASCII. -/
theorem layoutFrom_pinned (h : List.Forall₂ Rereadable segments chunks) (i : Nat) :
    (∃ fields, layoutFrom i (List.zipWith pinned segments chunks) = .ok fields) ∨
    ∃ k s chunk, (segments.zip chunks)[k]? = some (s, chunk) ∧ s.IsText ∧ ¬Text.IsAscii chunk ∧
      layoutFrom i (List.zipWith pinned segments chunks) =
        .error (i + k, .invalidLiteral s.kind "string") := by
  -- A literal may stand anywhere, so each segment is laid out without regard to the others.
  induction h generalizing i with
  | nil => exact .inl ⟨[], rfl⟩
  | @cons s chunk rest more hs _ ih =>
    rw [List.zipWith_cons_cons, layoutFrom]
    have hfield := hs.field_pinned (List.zipWith pinned rest more).isEmpty
    rcases hfield with ⟨f, hf⟩ | ⟨htext, hnot, herror⟩
    · rw [hf]
      rcases ih (i + 1) with ⟨fields, hfields⟩ | ⟨k, s', chunk', hk, htext, hnot, herror⟩
      · rw [hfields]
        exact .inl ⟨f :: fields, rfl⟩
      · refine .inr ⟨k + 1, s', chunk', hk, htext, hnot, ?_⟩
        rw [herror, Nat.add_right_comm, Nat.add_assoc]
    · rw [herror]
      exact .inr ⟨0, s, chunk, rfl, htext, hnot, rfl⟩

end

end Segment

namespace Matcher

/-- What a match of a layout binds is read from a cut. -/
theorem exists_isCut_of_bind? {segments : List Segment} {fields : List Field}
    (h : layout segments = .ok fields) {o : Occasion} {v : Value} {content : List UInt8}
    (hv : contentOf? v = some content) {values : List Value}
    (hbind : (Matcher.bytes fields).bind? o v = some values) :
    ∃ chunks, Segment.IsCut segments content chunks ∧
      values = Segment.readings segments chunks := by
  obtain ⟨hok, hvalues⟩ := bind?_eq_some_iff.mp hbind
  obtain ⟨chunks, hc⟩ := (fst_attempt_bytes_iff h o hv .empty).mp hok
  refine ⟨chunks, hc, ?_⟩
  rw [hvalues, attempt_bytes_of_isCut h o hv hc]
  exact (Bindings.record_unnamed .empty _).2.1

theorem contentOf?_of_attempt_bytes {fields : List Field} {o : Occasion} {v : Value}
    {out : Bindings} (h : (attempt o (.bytes fields) v out).1 = true) :
    ∃ content, contentOf? v = some content := by
  rw [attempt] at h
  cases hv : contentOf? v with
  | some content => exact ⟨content, rfl⟩
  | none =>
    rw [hv] at h
    cases h

section

variable {segments : List Segment} {chunks : List (List UInt8)} {pinned : List Field}

/-- With ASCII readings the segments match what they were read from and nothing else. -/
theorem attempt_bytes_pinned (hre : List.Forall₂ Segment.Rereadable segments chunks)
    (hascii : Segment.ReadsAscii segments chunks)
    (h : layout (List.zipWith Segment.pinned segments chunks) = .ok pinned) (o : Occasion)
    (v : Value) (out : Bindings) :
    ((attempt o (.bytes pinned) v out).1 = true ↔ contentOf? v = some chunks.flatten) ∧
    (contentOf? v = some chunks.flatten → (attempt o (.bytes pinned) v out).2 = out) := by
  have hcut : Segment.IsCut (List.zipWith Segment.pinned segments chunks) chunks.flatten chunks :=
    ⟨rfl, Segment.forall₂_suits_pinned hre hascii⟩
  have hmatch : contentOf? v = some chunks.flatten →
      attempt o (.bytes pinned) v out = (true, out) := by
    intro hv
    have hnone := (Segment.length_readings hcut).trans (Segment.countP_pinned hre)
    rw [attempt_bytes_of_isCut h o hv hcut, List.eq_nil_of_length_eq_zero hnone]
    rfl
  refine ⟨⟨fun hok => ?_, fun hv => by rw [hmatch hv]⟩, fun hv => by rw [hmatch hv]⟩
  -- Whatever is matched has the same pieces.
  obtain ⟨content, hv⟩ := contentOf?_of_attempt_bytes hok
  obtain ⟨chunks', hc'⟩ := (fst_attempt_bytes_iff h o hv out).mp hok
  have hsame := Segment.eq_of_forall₂_suits_pinned hre hc'.2
  rw [← Segment.eq_of_forall₂_suits_pinned hre hcut.2] at hsame
  rw [hv, ← hc'.1, hsame]

/-- With other readings the segments do not match what they were read from. -/
theorem attempt_bytes_pinned_of_not_readsAscii
    (hre : List.Forall₂ Segment.Rereadable segments chunks)
    (hnot : ¬Segment.ReadsAscii segments chunks)
    (h : layout (List.zipWith Segment.pinned segments chunks) = .ok pinned) (o : Occasion)
    {v : Value} (hv : contentOf? v = some chunks.flatten) (out : Bindings) :
    (attempt o (.bytes pinned) v out).1 = false := by
  rw [Bool.eq_false_iff]
  intro hok
  obtain ⟨chunks', hc'⟩ := (fst_attempt_bytes_iff h o hv out).mp hok
  have hlt := Segment.length_flatten_lt hre hnot
  rw [← Segment.eq_of_forall₂_suits_pinned hre hc'.2, hc'.1] at hlt
  exact Nat.lt_irrefl _ hlt

end

/-- **Free and literal segments are dual.**  Let a layout without free floating-point segments
match a byte sequence, and let every free segment get the value it bound as its literal.  If text
that was read byte by byte is ASCII, then the segments can be laid out, bind nothing, and match this
byte sequence and no other.  If it is not, they do not match it: such a segment is refused as a
literal of the wrong length, or the segments ask for other bytes. -/
theorem attempt_bytes_pin {segments : List Segment} {fields : List Field}
    (h : layout segments = .ok fields)
    (hfloat : ∀ s ∈ segments, s.literal = none → s.kind ≠ .float) {o : Occasion} {v : Value}
    {content : List UInt8} (hv : contentOf? v = some content) {values : List Value}
    (hbind : (Matcher.bytes fields).bind? o v = some values) :
    ∃ chunks, Segment.IsCut segments content chunks ∧
      values = Segment.readings segments chunks ∧
      (Segment.ReadsAscii segments chunks →
        ∃ pinned, layout (Segment.pin segments values) = .ok pinned ∧
          (Matcher.bytes pinned).bindingCount = 0 ∧
          ∀ (o' : Occasion) (v' : Value) (out : Bindings),
            ((attempt o' (.bytes pinned) v' out).1 = true ↔ contentOf? v' = some content) ∧
            (contentOf? v' = some content → (attempt o' (.bytes pinned) v' out).2 = out)) ∧
      (¬Segment.ReadsAscii segments chunks →
        (∃ index s chunk, (segments.zip chunks)[index]? = some (s, chunk) ∧ s.IsText ∧
          ¬Text.IsAscii chunk ∧ layout (Segment.pin segments values) =
            .error (index, .invalidLiteral s.kind "string")) ∨
        ∃ pinned, layout (Segment.pin segments values) = .ok pinned ∧
          ∀ (o' : Occasion) (v' : Value) (out : Bindings), contentOf? v' = some content →
            (attempt o' (.bytes pinned) v' out).1 = false) := by
  obtain ⟨chunks, hc, hvalues⟩ := exists_isCut_of_bind? h hv hbind
  have hre := Segment.forall₂_rereadable h hfloat hc
  have hpin : Segment.pin segments values = List.zipWith Segment.pinned segments chunks := by
    rw [hvalues, Segment.pin_readings hre]
  obtain rfl := hc.1
  rw [hpin]
  refine ⟨chunks, hc, hvalues, fun hascii => ?_, fun hnot => ?_⟩
  · rcases Segment.layoutFrom_pinned hre 0 with ⟨pinned, hpinned⟩ | ⟨_, s, chunk, hk, htext, hn, _⟩
    · exact ⟨pinned, hpinned, (freeCount_layoutFrom hpinned).trans (Segment.countP_pinned hre),
        fun o' v' out => attempt_bytes_pinned hre hascii hpinned o' v' out⟩
    · exact absurd (hascii (s, chunk) (List.mem_of_getElem? hk) htext) hn
  · rcases Segment.layoutFrom_pinned hre 0 with ⟨pinned, hpinned⟩ | ⟨k, s, chunk, hk, htext, hn, he⟩
    · exact .inr ⟨pinned, hpinned, fun o' v' out hv' =>
        attempt_bytes_pinned_of_not_readsAscii hre hnot hpinned o' hv' out⟩
    · rw [Nat.zero_add] at he
      exact .inl ⟨k, s, chunk, hk, htext, hn, he⟩

-- The byte 233 is read as "é", which is written in two bytes: too long for a segment of one.
example : layout (Segment.pin [⟨none, .binary, some 1, none, []⟩] [.string (Text.latin1 [233])]) =
    .error (0, .invalidLiteral .binary "string") := rfl

/-- A signed number with its least significant byte first, a byte as it is, and the rest as text. -/
theorem attempt_bytes_pin_mixed :
    ∃ fields pinned,
      layout [⟨none, .integer, some 16, none, [.signed, .little]⟩,
        ⟨none, .bitstring, some 8, none, []⟩, ⟨none, .binary, none, none, []⟩] = .ok fields ∧
      (Matcher.bytes fields).bind? .start (.bytes [254, 255, 233, 97, 98]) =
        some [.int (-2), .bytes [233], .string "ab"] ∧
      layout [⟨some (.int (-2)), .integer, some 16, none, [.signed, .little]⟩,
        ⟨some (.bytes [233]), .bitstring, some 8, none, []⟩,
        ⟨some (.string "ab"), .binary, none, none, []⟩] = .ok pinned ∧
      ∀ v, (attempt .start (.bytes pinned) v .empty).1 = true ↔
        contentOf? v = some [254, 255, 233, 97, 98] := by
  have hlayout : layout [⟨none, .integer, some 16, none, [.signed, .little]⟩,
      ⟨none, .bitstring, some 8, none, []⟩, ⟨none, .binary, none, none, []⟩] = .ok _ := rfl
  have hcut : Segment.IsCut [⟨none, .integer, some 16, none, [.signed, .little]⟩,
      ⟨none, .bitstring, some 8, none, []⟩, ⟨none, .binary, none, none, []⟩]
      [254, 255, 233, 97, 98] [[254, 255], [233], [97, 98]] := by
    refine ⟨rfl, .cons ⟨?_, nofun, fun _ => rfl⟩ (.cons ⟨?_, nofun, fun _ => rfl⟩
      (.cons ⟨nofun, nofun, fun _ => rfl⟩ .nil))⟩ <;> rintro n ⟨⟩ <;> rfl
  obtain ⟨chunks, hc, _, hascii, _⟩ := attempt_bytes_pin hlayout (by decide) (o := .start)
    (v := .bytes [254, 255, 233, 97, 98]) rfl
    (show _ = some [.int (-2), .bytes [233], .string "ab"] from rfl)
  obtain rfl := Segment.isCut_unique hlayout hcut hc
  obtain ⟨pinned, hpinned, _, hall⟩ := hascii (by decide)
  exact ⟨_, pinned, hlayout, rfl, hpinned, fun v => (hall .start v .empty).1⟩

end Matcher

end StructuralMatching
