/-
Text in units of 16 and 32 bits, and characters given by their code points.

* `SegmentType.IsWide` — the types of wide text, with the bytes of a unit;
* `SegmentType.Malformed` — units that are not those of a text;
* `Field.Fits` — bytes of the declared width, if one is declared;
* `Field.textBytes` — the bytes of a text;
* `Segment.WritesText`, `Segment.ReadsText` — a text as a literal, and what a free segment reads;
* `Segment.WritesCodePoint` — an integer in place of a character;
* `Segment.text_corresponds` — literals and free segments of one layout.

Design notes: wide text needs no declared width, but if there is one, literals and free segments
have to meet it.  What bytes stand for does not depend on it.
-/
import StructuralMatching.Proofs.Segment.Integers
import StructuralMatching.Proofs.Text.Units

namespace StructuralMatching

namespace SegmentType

/-! ### The units of a text -/

/-- The types that write text in an encoding of Unicode. -/
def IsUnicode (kind : SegmentType) : Prop := kind = .utf8 ∨ kind = .utf16 ∨ kind = .utf32

/-- The types with wide units, and the bytes of a unit. -/
inductive IsWide : SegmentType → Nat → Prop
  | utf16 : IsWide .utf16 2
  | utf32 : IsWide .utf32 4

/-- Units that are not those of a text: one of 16 bits is a surrogate outside of a pair, or one of
32 bits is a surrogate or beyond the last code point. -/
def Malformed (kind : SegmentType) (units : List Nat) : Prop :=
  kind = .utf16 ∧ (∃ k, Text.IsUnpaired units k) ∨
  kind = .utf32 ∧ ∃ unit ∈ units, 0xD800 ≤ unit ∧ unit ≤ 0xDFFF ∨ 0x10FFFF < unit

/-- The units of a text. -/
def toUnits (kind : SegmentType) (t : String) : List Nat :=
  if kind = .utf16 then Text.utf16 t else Text.utf32 t

/-- The text of units, if they are those of one. -/
def ofUnits? (kind : SegmentType) (units : List Nat) : Option String :=
  if kind = .utf16 then Text.ofUtf16? units else Text.ofUtf32? units

namespace IsWide

variable {kind : SegmentType} {size : Nat}

theorem isUnicode (h : kind.IsWide size) : kind.IsUnicode := by
  cases h with
  | utf16 => exact .inr (.inl rfl)
  | utf32 => exact .inr (.inr rfl)

theorem size_pos (h : kind.IsWide size) : 0 < size := by
  cases h <;> decide

theorem excludes (h : kind.IsWide size) :
    kind ≠ .float ∧ kind ≠ .integer ∧ kind.isBytewise = false := by
  cases h <;> decide

theorem lt_of_mem_toUnits (h : kind.IsWide size) {t : String} {unit : Nat}
    (hunit : unit ∈ kind.toUnits t) : unit < 256 ^ size := by
  cases h with
  | utf16 => exact Text.lt_of_mem_utf16 hunit
  | utf32 => exact Text.lt_of_mem_utf32 hunit

/-- The text of the units of a text is this text. -/
theorem ofUnits?_toUnits (h : kind.IsWide size) (t : String) :
    kind.ofUnits? (kind.toUnits t) = some t := by
  cases h with
  | utf16 => exact Text.ofUtf16?_utf16 t
  | utf32 => exact Text.ofUtf32?_utf32 t

theorem ofUnits?_eq_none_iff (h : kind.IsWide size) {units : List Nat}
    (hunits : ∀ unit ∈ units, unit < 256 ^ size) :
    kind.ofUnits? units = none ↔ kind.Malformed units := by
  cases h with
  | utf16 =>
    rw [Malformed, or_iff_left fun h => SegmentType.noConfusion h.1, and_iff_right rfl]
    exact Text.ofUtf16?_eq_none_iff hunits
  | utf32 =>
    rw [Malformed, or_iff_right fun h => SegmentType.noConfusion h.1, and_iff_right rfl]
    refine Text.ofUtf32?_eq_none_iff.trans (exists_congr fun unit => and_congr_right fun _ => ?_)
    rw [Text.IsScalar]
    omega

end IsWide

end SegmentType

/-! ### The bytes of a text -/

namespace Field

variable {f : Field} {size : Nat} {chunk : List UInt8} {v : Value}

/-- The bytes of a text. -/
def textBytes (f : Field) (t : String) : List UInt8 :=
  match f.kind with
  | .utf16 => (Text.utf16 t).flatMap (f.order.encode 2)
  | .utf32 => (Text.utf32 t).flatMap (f.order.encode 4)
  | _ => Text.utf8 t

/-- Literals are written as the text that they stand for. -/
theorem encode_eq_textBytes (hf : f.kind.IsUnicode) (value : Value) :
    f.encode value = match literalText? value with
      | some t => .ok (f.textBytes t)
      | none => .error (.invalidLiteral f.kind value.typeName) := by
  obtain ⟨kind, span, literal, signed, order⟩ := f
  rcases hf with h | h | h
  · obtain rfl : kind = .utf8 := h
    rfl
  · obtain rfl : kind = .utf16 := h
    rfl
  · obtain rfl : kind = .utf32 := h
    rfl

theorem textBytes_of_isWide (hf : f.kind.IsWide size) (t : String) :
    f.textBytes t = (f.kind.toUnits t).flatMap (f.order.encode size) := by
  obtain ⟨kind, span, literal, signed, order⟩ := f
  replace hf : kind.IsWide size := hf
  cases hf <;> rfl

/-- Bytes are read unit by unit. -/
theorem decode?_of_isWide (hf : f.kind.IsWide size) (chunk : List UInt8) :
    f.decode? chunk = (((chunksOf? size chunk).map (List.map f.order.decode)).bind
      f.kind.ofUnits?).map .string := by
  obtain ⟨kind, span, literal, signed, order⟩ := f
  replace hf : kind.IsWide size := hf
  cases hf with
  | utf16 =>
    show ((chunksOf? 2 chunk).bind fun pieces => (Text.ofUtf16? (pieces.map order.decode)).bind
      fun t => some (Value.string t)) = _
    cases chunksOf? 2 chunk with
    | none => rfl
    | some pieces => exact Option.map_eq_bind.symm
  | utf32 =>
    show ((chunksOf? 4 chunk).bind fun pieces => (Text.ofUtf32? (pieces.map order.decode)).bind
      fun t => some (Value.string t)) = _
    cases chunksOf? 4 chunk with
    | none => rfl
    | some pieces => exact Option.map_eq_bind.symm

/-- **The bytes of a text are read as this text.** -/
theorem decode?_textBytes (hf : f.kind.IsWide size) (t : String) :
    f.decode? (f.textBytes t) = some (.string t) := by
  rw [decode?_of_isWide hf, textBytes_of_isWide hf,
    ByteOrder.chunksOf?_flatMap_encode hf.size_pos fun _ h => hf.lt_of_mem_toUnits h,
    Option.bind_some, hf.ofUnits?_toUnits]
  rfl

/-- **Bytes stand for no text if a unit is incomplete or the units are malformed.** -/
theorem decode?_eq_none_iff (hf : f.kind.IsWide size) : f.decode? chunk = none ↔
    ¬size ∣ chunk.length ∨ f.kind.Malformed (f.order.units size chunk) := by
  rw [decode?_of_isWide hf, chunksOf?_eq hf.size_pos, Option.map_eq_none_iff]
  by_cases hdvd : size ∣ chunk.length
  · rw [if_pos hdvd, or_iff_right (not_not.mpr hdvd)]
    exact hf.ofUnits?_eq_none_iff fun _ h => ByteOrder.lt_of_mem_units hf.size_pos hdvd h
  · rw [if_neg hdvd]
    exact iff_of_true rfl (.inl hdvd)

/-- What bytes stand for is a text, and they are its bytes. -/
theorem exists_text_of_decode? (hf : f.kind.IsWide size) (h : f.decode? chunk = some v) :
    ∃ t, v = .string t ∧ f.textBytes t = chunk := by
  obtain ⟨hfloat, hinteger, hbytewise⟩ := hf.excludes
  have hwritten := encode_of_decode? hfloat (fun hk => absurd hk hinteger) h
  rw [decode?_of_isWide hf] at h
  obtain ⟨t, _, rfl⟩ := Option.map_eq_some_iff.mp h
  rw [encode_eq_textBytes hf.isUnicode, written, hbytewise] at hwritten
  exact ⟨t, rfl, Except.ok.inj hwritten⟩

theorem literalText?_int_eq_some_iff {n : Int64} {t : String} :
    literalText? (.int n) = some t ↔
      ∃ c : Char, (c.toNat : Int) = n.toInt ∧ t = String.singleton c := by
  show (if 0 ≤ n.toInt then (Text.scalar? n.toInt.toNat).map fun c => String.ofList [c]
    else none) = some t ↔ _
  by_cases hn : 0 ≤ n.toInt
  · rw [if_pos hn, Option.map_eq_some_iff]
    refine exists_congr fun c => and_congr ?_ ?_
    · rw [Text.scalar?_eq_some_iff]
      omega
    · rw [String.singleton_eq_ofList, eq_comm]
  · rw [if_neg hn]
    refine iff_of_false (Option.some_ne_none t).symm ?_
    rintro ⟨c, hc, _⟩
    exact hn (hc ▸ Int.natCast_nonneg _)

/-- The code point of a character is written as this character. -/
theorem encode_int_of_char (hf : f.kind.IsUnicode) {n : Int64} {c : Char}
    (hc : (c.toNat : Int) = n.toInt) :
    f.encode (.int n) = .ok (f.textBytes (String.singleton c)) := by
  rw [encode_eq_textBytes hf, literalText?_int_eq_some_iff.mpr ⟨c, hc, rfl⟩]

theorem encode_int_of_no_char (hf : f.kind.IsUnicode) {n : Int64}
    (h : ¬∃ c : Char, (c.toNat : Int) = n.toInt) :
    f.encode (.int n) = .error (.invalidLiteral f.kind "int") := by
  have hlit : literalText? (.int n) = none := by
    refine Option.eq_none_iff_forall_ne_some.mpr fun t ht => ?_
    obtain ⟨c, hc, _⟩ := literalText?_int_eq_some_iff.mp ht
    exact h ⟨c, hc⟩
  rw [encode_eq_textBytes hf, hlit]
  rfl

/-- An integer is accepted exactly if it is the code point of a character. -/
theorem exists_encode_int_iff (hf : f.kind.IsUnicode) {n : Int64} :
    (∃ bytes, f.encode (.int n) = .ok bytes) ↔ ∃ c : Char, (c.toNat : Int) = n.toInt := by
  constructor
  · rintro ⟨bytes, hbytes⟩
    by_contra hno
    rw [encode_int_of_no_char hf hno] at hbytes
    cases hbytes
  · rintro ⟨c, hc⟩
    exact ⟨_, encode_int_of_char hf hc⟩

/-! ### Declared widths -/

/-- The bytes have the width of the segment, if it has one. -/
def Fits (f : Field) (chunk : List UInt8) : Prop := ∀ n, f.span = some n → n = chunk.length

theorem any_ne_iff : f.span.any (· != chunk.length) = true ↔ ¬f.Fits chunk := by
  rw [Fits]
  cases f.span with
  | none => simp
  | some n => simp

theorem refuses_of_not_fits (h : ¬f.Fits chunk) : f.Refuses chunk := by
  intro out
  rw [attempt, if_pos (any_ne_iff.mpr h)]

/-- The same with a declared width. -/
def sized (f : Field) (width : Nat) : Field := { f with span := some width }

/-- Bytes that fit are treated as if their width had been declared. -/
theorem attempt_sized (h : f.Fits chunk) (out : Bindings) :
    (f.sized chunk.length).attempt chunk out = f.attempt chunk out := by
  have hany : ¬(f.span.any (· != chunk.length) = true) := any_ne_iff.not.mpr (not_not.mpr h)
  have hsized : ¬((f.sized chunk.length).span.any (· != chunk.length) = true) := by simp [sized]
  rw [attempt, attempt, if_neg hany, if_neg hsized]
  rfl

theorem reads_iff_fits (hf : f.literal = none) :
    f.Reads chunk v ↔ f.Fits chunk ∧ f.decode? chunk = some v := by
  have hsized : (f.sized chunk.length).Reads chunk v ↔ f.decode? chunk = some v := reads_iff hf rfl
  constructor
  · intro hread
    have hfits : f.Fits chunk := by
      by_contra hno
      have hrefuses := refuses_of_not_fits hno .empty
      rw [hread .empty] at hrefuses
      cases hrefuses
    exact ⟨hfits, hsized.mp fun out => (attempt_sized hfits out).trans (hread out)⟩
  · rintro ⟨hfits, hdecode⟩ out
    rw [← attempt_sized hfits]
    exact hsized.mpr hdecode out

theorem refuses_iff_fits (hf : f.literal = none) :
    f.Refuses chunk ↔ ¬f.Fits chunk ∨ f.decode? chunk = none := by
  by_cases hfits : f.Fits chunk
  · have hsame : (f.sized chunk.length).Refuses chunk ↔ f.Refuses chunk :=
      forall_congr' fun out => by rw [attempt_sized hfits]
    rw [or_iff_right (not_not.mpr hfits), ← hsame]
    exact refuses_iff hf rfl
  · exact iff_of_true (refuses_of_not_fits hfits) (.inl hfits)

end Field

namespace Segment

/-- The segments have the same type and byte order. -/
structure Alike (s r : Segment) : Prop where
  kind_eq : s.kind = r.kind
  order_eq : s.order = r.order

/-- A text as the literal of `s`, and what `r` reads if it is free.  Either fails only if there is a
width and the bytes have another one. -/
structure WritesText (s r : Segment) (isLast : Bool) (t : String) (bytes : List UInt8) : Prop where
  encode_eq : s.blank.encode (.string t) = .ok bytes
  laidOut : s.blank.Fits bytes → { s with literal := some (.string t) }.field isLast =
    .ok { s.blank with span := some bytes.length, literal := some bytes }
  not_laidOut : ¬s.blank.Fits bytes → { s with literal := some (.string t) }.field isLast =
    .error (.invalidLiteral s.kind "string")
  reads : r.blank.Fits bytes → r.blank.Reads bytes (.string t)
  refuses : ¬r.blank.Fits bytes → r.blank.Refuses bytes

/-- What `r` reads if it is free, and what is written for it as the literal of `s`. -/
structure ReadsText (s r : Segment) (size : Nat) (isLast : Bool) (chunk : List UInt8) : Prop where
  refuses_iff : r.blank.Refuses chunk ↔ ¬r.blank.Fits chunk ∨ ¬size ∣ chunk.length ∨
    r.kind.Malformed (r.order.units size chunk)
  reads : r.blank.Refuses chunk ∨ ∃ t, r.blank.Reads chunk (.string t)
  encode_eq : ∀ v, r.blank.Reads chunk v → s.blank.encode v = .ok chunk
  laidOut : s.blank.Fits chunk → ∀ v, r.blank.Reads chunk v →
    { s with literal := some v }.field isLast =
      .ok { s.blank with span := some chunk.length, literal := some chunk }

/-- An integer as a literal: it stands for the character that has it as its code point. -/
structure WritesCodePoint (s : Segment) (isLast : Bool) (n : Int64) : Prop where
  accepted_iff : (∃ bytes, s.blank.encode (.int n) = .ok bytes) ↔
    ∃ k : Nat, (k : Int) = n.toInt ∧ Text.IsScalar k
  encode_eq : ∀ c : Char, (c.toNat : Int) = n.toInt → ∃ bytes,
    s.blank.encode (.int n) = .ok bytes ∧
    s.blank.encode (.string (String.singleton c)) = .ok bytes
  field_iff : ∀ f : Field, { s with literal := some (.int n) }.field isLast = .ok f ↔
    ∃ c : Char, (c.toNat : Int) = n.toInt ∧
      { s with literal := some (.string (String.singleton c)) }.field isLast = .ok f
  laidOut_iff : s.size = none → ((∃ f, { s with literal := some (.int n) }.field isLast = .ok f) ↔
    ∃ k : Nat, (k : Int) = n.toInt ∧ Text.IsScalar k)
  refused : (¬∃ k : Nat, (k : Int) = n.toInt ∧ Text.IsScalar k) →
    { s with literal := some (.int n) }.field isLast = .error (.invalidLiteral s.kind "int")

section

variable {s r : Segment} {span : Option Nat} {size : Nat}

/-- What a text is written as does not depend on a width. -/
theorem Alike.textBytes_eq (h : s.Alike r) (t : String) :
    s.blank.textBytes t = r.blank.textBytes t := by
  obtain ⟨_, kind, _, _, _⟩ := s
  obtain ⟨rfl, horder⟩ := h
  show Field.textBytes ⟨r.kind, _, none, _, _⟩ t = Field.textBytes ⟨r.kind, _, none, _, _⟩ t
  rw [horder]
  rfl

theorem fits_of_unsized (hs : s.kind.IsUnicode) (h : s.size = none) (chunk : List UInt8) :
    s.blank.Fits chunk := by
  have hnone : s.declaredSpan = .ok none := by
    have hdefault : s.kind.defaultSize? = none := by
      rcases hs with hk | hk | hk <;> rw [hk] <;> rfl
    rw [declaredSpan, bitWidth?, h, hdefault]
    rfl
  intro n hn
  rw [span_blank hnone] at hn
  cases hn

theorem field_free_of_isWide (hspan : s.declaredSpan = .ok span) (hs : s.kind.IsWide size)
    {isLast : Bool} (h : isLast = true ∨ s.blank.span ≠ none) :
    { s with literal := none }.field isLast = .ok s.blank := by
  have hsame : { s with literal := none }.declaredSpan = .ok span := hspan
  have hopen : ¬((span.isNone && !isLast) = true) := by
    rw [span_blank hspan] at h
    rcases h with rfl | h
    · simp
    · simp [h]
  rw [blank_eq hspan, field, hsame]
  show { s with literal := none }.freeField isLast span = _
  rw [freeField, if_neg hopen, if_neg hs.excludes.2.1]
  rfl

/-- A literal is laid out as its bytes if they fit. -/
theorem field_literal_of_encode (hspan : s.declaredSpan = .ok span) {value : Value}
    {bytes : List UInt8} (h : s.blank.encode value = .ok bytes) (isLast : Bool) :
    (s.blank.Fits bytes → { s with literal := some value }.field isLast =
      .ok { s.blank with span := some bytes.length, literal := some bytes }) ∧
    (¬s.blank.Fits bytes → { s with literal := some value }.field isLast =
      .error (.invalidLiteral s.kind value.typeName)) := by
  have hvalue : { s with literal := some value }.literal = some value := rfl
  have hfield := field_of_encode hvalue hspan h isLast
  rw [← span_blank hspan] at hfield
  rw [hfield]
  exact ⟨fun hfits => if_neg (Field.any_ne_iff.not.mpr (not_not.mpr hfits)),
    fun hno => if_pos (Field.any_ne_iff.mpr hno)⟩

theorem writesText (hspan : s.declaredSpan = .ok span) (h : s.Alike r) (hr : r.kind.IsWide size)
    (isLast : Bool) (t : String) : WritesText s r isLast t (s.blank.textBytes t) := by
  have hs : s.kind.IsUnicode := h.kind_eq ▸ hr.isUnicode
  have hencode : s.blank.encode (.string t) = .ok (s.blank.textBytes t) :=
    Field.encode_eq_textBytes hs (.string t)
  have hdecode : r.blank.decode? (s.blank.textBytes t) = some (.string t) := by
    rw [h.textBytes_eq]
    exact Field.decode?_textBytes hr t
  obtain ⟨hfits, hno⟩ := field_literal_of_encode hspan hencode isLast
  exact ⟨hencode, hfits, hno, fun hr' => (Field.reads_iff_fits rfl).mpr ⟨hr', hdecode⟩,
    Field.refuses_of_not_fits⟩

theorem readsText (hspan : s.declaredSpan = .ok span) (h : s.Alike r) (hr : r.kind.IsWide size)
    (isLast : Bool) (chunk : List UInt8) : ReadsText s r size isLast chunk := by
  have hrefuses : r.blank.Refuses chunk ↔ ¬r.blank.Fits chunk ∨ r.blank.decode? chunk = none :=
    Field.refuses_iff_fits rfl
  have hnone : r.blank.decode? chunk = none ↔ ¬size ∣ chunk.length ∨
      r.kind.Malformed (r.order.units size chunk) := Field.decode?_eq_none_iff hr
  -- What was read is a text, and its bytes in `s` are those in `r`.
  have hencode : ∀ v, r.blank.Reads chunk v → s.blank.encode v = .ok chunk := by
    intro v hv
    obtain ⟨t, rfl, rfl⟩ :=
      Field.exists_text_of_decode? (f := r.blank) hr ((Field.reads_iff_fits rfl).mp hv).2
    rw [← h.textBytes_eq]
    exact (writesText hspan h hr isLast t).encode_eq
  refine ⟨hrefuses.trans (or_congr Iff.rfl hnone), ?_, hencode,
    fun hfits v hv => (field_literal_of_encode hspan (hencode v hv) isLast).1 hfits⟩
  by_cases hfits : r.blank.Fits chunk
  · cases hd : r.blank.decode? chunk with
    | none => exact .inl (hrefuses.mpr (.inr hd))
    | some v =>
      obtain ⟨t, rfl, _⟩ := Field.exists_text_of_decode? (f := r.blank) hr hd
      exact .inr ⟨t, (Field.reads_iff_fits rfl).mpr ⟨hfits, hd⟩⟩
  · exact .inl (hrefuses.mpr (.inl hfits))

/-- Values that are written as the same bytes are laid out alike, or none of them is. -/
theorem field_literal_congr (hspan : s.declaredSpan = .ok span) {value value' : Value}
    {bytes : List UInt8} (h : s.blank.encode value = .ok bytes)
    (h' : s.blank.encode value' = .ok bytes) (isLast : Bool) (f : Field) :
    { s with literal := some value }.field isLast = .ok f ↔
      { s with literal := some value' }.field isLast = .ok f := by
  obtain ⟨hfits, hno⟩ := field_literal_of_encode hspan h isLast
  obtain ⟨hfits', hno'⟩ := field_literal_of_encode hspan h' isLast
  by_cases hf : s.blank.Fits bytes
  · rw [hfits hf, hfits' hf]
  · rw [hno hf, hno' hf]
    constructor
    · rintro ⟨⟩
    · rintro ⟨⟩

theorem field_literal_of_encode_error (hspan : s.declaredSpan = .ok span) {value : Value}
    {e : SegmentError} (h : s.blank.encode value = .error e) (isLast : Bool) :
    { s with literal := some value }.field isLast = .error e := by
  have hsame : { s with literal := some value }.declaredSpan = .ok span := hspan
  rw [blank_eq hspan] at h
  rw [field, hsame]
  show s.literalField value span = _
  rw [literalField]
  simp only [h]
  rfl

theorem writesCodePoint (hspan : s.declaredSpan = .ok span) (hs : s.kind.IsUnicode) (isLast : Bool)
    (n : Int64) : s.WritesCodePoint isLast n := by
  have hscalar := Text.exists_toNat_cast_eq_iff (z := n.toInt)
  have hchar : ∀ c : Char, (c.toNat : Int) = n.toInt →
      s.blank.encode (.int n) = .ok (s.blank.textBytes (String.singleton c)) ∧
      s.blank.encode (.string (String.singleton c)) =
        .ok (s.blank.textBytes (String.singleton c)) := fun c hc =>
    ⟨Field.encode_int_of_char hs hc, Field.encode_eq_textBytes hs (.string (String.singleton c))⟩
  have haccepted := Field.exists_encode_int_iff (f := s.blank) hs (n := n)
  have hrefused : (¬∃ k : Nat, (k : Int) = n.toInt ∧ Text.IsScalar k) →
      { s with literal := some (.int n) }.field isLast = .error (.invalidLiteral s.kind "int") :=
    fun hno => field_literal_of_encode_error hspan
      (Field.encode_int_of_no_char hs (hscalar.not.mpr hno)) isLast
  refine ⟨haccepted.trans hscalar, fun c hc => ⟨_, hchar c hc⟩, fun f => ?_, fun hsize => ?_,
    hrefused⟩
  · constructor
    · intro hf
      obtain ⟨bytes, hbytes, _⟩ := field_of_literal rfl hf
      obtain ⟨c, hc⟩ := haccepted.mp ⟨bytes, hbytes⟩
      exact ⟨c, hc, (field_literal_congr hspan (hchar c hc).1 (hchar c hc).2 isLast f).mp hf⟩
    · rintro ⟨c, hc, hf⟩
      exact (field_literal_congr hspan (hchar c hc).1 (hchar c hc).2 isLast f).mpr hf
  · constructor
    · rintro ⟨f, hf⟩
      by_contra hno
      rw [hrefused hno] at hf
      cases hf
    · intro h
      obtain ⟨c, hc⟩ := hscalar.mpr h
      have hfits := fits_of_unsized hs hsize (s.blank.textBytes (String.singleton c))
      exact ⟨_, (field_literal_of_encode hspan (hchar c hc).1 isLast).1 hfits⟩

/-- **Literal and free segments of wide text correspond**, in UTF-16 and UTF-32 and in both byte
orders.  A text is laid out as bytes from which a free segment of this type and byte order reads
the text.  What a free segment reads is a text, which is written as the bytes it was read from.  A
free segment refuses bytes with an incomplete unit, with an unpaired surrogate among units of 16
bits, or with a unit of 32 bits that is a surrogate or beyond the last code point.  In every
encoding an integer literal is accepted if it is the code point of a character, and stands for this
character then. -/
theorem text_corresponds (hspan : s.declaredSpan = .ok span) (isLast : Bool) :
    (∀ size r, r.kind.IsWide size → s.Alike r →
      (∀ t, ∃ bytes, WritesText s r isLast t bytes) ∧ ∀ chunk, ReadsText s r size isLast chunk) ∧
    (s.kind.IsUnicode → ∀ n, s.WritesCodePoint isLast n) ∧
    (∀ size, s.kind.IsWide size → isLast = true ∨ s.blank.span ≠ none →
      { s with literal := none }.field isLast = .ok s.blank) ∧
    ∀ r : Segment, r.kind.IsUnicode → r.size = none → ∀ bytes, r.blank.Fits bytes :=
  ⟨fun _ _ hr h => ⟨fun t => ⟨_, writesText hspan h hr isLast t⟩, readsText hspan h hr isLast⟩,
    fun hs => writesCodePoint hspan hs isLast, fun _ hs => field_free_of_isWide hspan hs,
    fun _ hr => fits_of_unsized hr⟩

/-- A character beyond 16 bits with the least significant bytes first, its surrogates in the wrong
order, and its code point in UTF-32. -/
theorem text_corresponds_clef :
    ∃ s r u : Segment, s = ⟨none, .utf16, none, none, [.little]⟩ ∧
      r = ⟨none, .utf16, some 2, none, [.little]⟩ ∧ u = ⟨none, .utf32, none, none, []⟩ ∧
      WritesText s r true "𝄞" [0x34, 0xD8, 0x1E, 0xDD] ∧
      r.blank.Reads [0x34, 0xD8, 0x1E, 0xDD] (.string "𝄞") ∧
      r.blank.Refuses [0x1E, 0xDD, 0x34, 0xD8] ∧
      u.WritesCodePoint true 0x1D11E ∧
      ∃ bytes, u.blank.encode (.int 0x1D11E) = .ok bytes := by
  refine ⟨_, _, _, rfl, rfl, rfl, ?_⟩
  have hs : declaredSpan ⟨none, .utf16, none, none, [.little]⟩ = .ok none := rfl
  have hu : declaredSpan ⟨none, .utf32, none, none, []⟩ = .ok none := rfl
  obtain ⟨hwide, _⟩ := text_corresponds hs true
  obtain ⟨hwrites, hreads⟩ := hwide 2 ⟨none, .utf16, some 2, none, [.little]⟩ .utf16 ⟨rfl, rfl⟩
  obtain ⟨_, hcode, _⟩ := text_corresponds hu true
  obtain ⟨bytes, hclef⟩ := hwrites "𝄞"
  have hbytes : bytes = [0x34, 0xD8, 0x1E, 0xDD] := (Except.ok.inj hclef.encode_eq).symm
  subst hbytes
  have hfits : (blank ⟨none, .utf16, some 2, none, [.little]⟩).Fits [0x34, 0xD8, 0x1E, 0xDD] := by
    rintro n ⟨⟩
    rfl
  have hcodePoint := hcode (.inr (.inr rfl)) 0x1D11E
  refine ⟨hclef, hclef.reads hfits, (hreads _).refuses_iff.mpr (.inr (.inr (.inl ⟨rfl, 0, ?_⟩))),
    hcodePoint, hcodePoint.accepted_iff.mpr ⟨0x1D11E, rfl, ?_⟩⟩
  · exact .inr ⟨rfl, .inl rfl⟩
  · exact ⟨by decide, by decide⟩

end

end Segment

end StructuralMatching
