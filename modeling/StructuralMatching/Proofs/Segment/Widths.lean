/-
Widths of segments, computed on machine words.

Sizes and units have 32 bits, and their product may have almost 64.  This product is divided by
eight, taken as a number of bytes in memory, multiplied by eight again where an error reports it,
and subtracted from the width of a word where an integer is written or read.  On words each of
these operations may leave its range.  None of them does, so that all of it could as well be
computed with natural numbers.

* `Segment.exactWidth?` — unit times size, as a natural number;
* `Segment.spanOnWords`, `Field.encodeOnWords`, `Field.decodeOnWords` — what is computed from
  widths, on words;
* `Segment.spanOnWords_eq`, `Field.encodeOnWords_eq`, `Field.decodeOnWords_eq` — it is the same;
* `Segment.exactWidth?_of_field_error` — a width that is reported is the exact one;
* `layoutFrom_eq_error_iff` — an error is that of the first segment that cannot be laid out;
* `widths_are_exact` — all this for the segments of a list.

Design notes: memory has addresses of 64 bits.
-/
import StructuralMatching.Proofs.Segment.Words

namespace StructuralMatching

theorem bind_eq_error_iff {ε α β : Type} {x : Except ε α} {f : α → Except ε β} {e : ε} :
    (x >>= f) = .error e ↔ x = .error e ∨ ∃ a, x = .ok a ∧ f a = .error e := by
  cases x with
  | error e' =>
    show Except.error e' = .error e ↔ _
    simp
  | ok a =>
    show f a = .error e ↔ _
    simp

/-! ### What is computed from widths -/

/-- The number that is written for a literal of a floating-point segment. -/
def numberLiteral? : Value → Option Binary64
  | .float x => some x
  | .int n => some (Binary64.ofInt n.toInt)
  | _ => none

/-- Floating-point numbers take four or eight bytes. -/
def numberBytesOnWords (order : ByteOrder) (width : Nat) (x : Binary64) :
    Except (Halt SegmentError) (List UInt8) :=
  if width = 4 then return order.encode 4 x.narrow
  else if width = 8 then return order.encode 8 x.word
  else unsupportedOnWords .float width

namespace Field

/-- The bytes of a literal. -/
def encodeOnWords (f : Field) (value : Value) : Except (Halt SegmentError) (List UInt8) :=
  match f.kind with
  | .integer =>
    match value with
    | .int n => integerBytesOnWords f.order (f.span.getD 1) n
    | _ => throw (.refused (.invalidLiteral f.kind value.typeName))
  | .float =>
    match numberLiteral? value with
    | some x => numberBytesOnWords f.order (f.span.getD 8) x
    | none => throw (.refused (.invalidLiteral f.kind value.typeName))
  | _ => (f.encode value).mapError .refused

/-- The value that the bytes of a free segment stand for. -/
def decodeOnWords (f : Field) (chunk : List UInt8) :
    Except (Halt SegmentError) (Option Value) :=
  match f.kind with
  | .integer => do
    let n ← integerOnWords? f.signed f.order chunk
    return n.map .int
  | _ => return f.decode? chunk

end Field

namespace SegmentError

/-- The width in bits that an error reports. -/
def width? : SegmentError → Option UInt64
  | unaligned bits | unsupportedWidth _ bits => some bits
  | unsized _ | invalidLiteral .. => none

/-- An error that reports a width says that the type has no values of so many bytes. -/
def Reports (e : SegmentError) (kind : SegmentType) (span : Option Nat) : Prop :=
  e.width? = none ∨ ∃ n, span = some n ∧ e = .unsupportedWidth kind (8 * UInt64.ofNat n)

end SegmentError

namespace Segment

/-- The width in bits as a natural number: unit times size, if the segment or its type gives a
size. -/
def exactWidth? (s : Segment) : Option Nat :=
  (s.size <|> s.kind.defaultSize?).map fun size =>
    (s.unit.getD s.kind.defaultUnit).toNat * size.toNat

/-- The width in bytes, if the segment or its type gives a size. -/
def spanOnWords (s : Segment) : Except (Halt SegmentError) (Option Nat) :=
  match s.size <|> s.kind.defaultSize? with
  | none => return none
  | some size => do
    let bits ← Halt.unless
      (Word.mul? 64 (s.unit.getD s.kind.defaultUnit).toNat size.toNat)
    if bits % 8 = 0 then
      match Word.ofNat? 64 (bits / 8) with
      | some n => return some n
      | none => throw (.refused (.unsupportedWidth s.kind (UInt64.ofNat bits)))
    else throw (.refused (.unaligned (UInt64.ofNat bits)))

/-- A free segment laid out. -/
def freeFieldOnWords (s : Segment) (isLast : Bool) (span : Option Nat) :
    Except (Halt SegmentError) Field := do
  if span.isNone && !isLast then throw (.refused (.unsized s.kind))
  if s.kind = .integer then checkIntegerSpanOnWords span
  return ⟨s.kind, span, none, s.isSigned, s.order⟩

/-- A literal segment laid out. -/
def literalFieldOnWords (s : Segment) (value : Value) (span : Option Nat) :
    Except (Halt SegmentError) Field := do
  let field : Field := ⟨s.kind, span, none, s.isSigned, s.order⟩
  let content ← field.encodeOnWords value
  if span.any (· != content.length) then
    throw (.refused (.invalidLiteral s.kind value.typeName))
  return { field with span := some content.length, literal := some content }

/-- A segment laid out. -/
def fieldOnWords (s : Segment) (isLast : Bool) : Except (Halt SegmentError) Field := do
  let span ← s.spanOnWords
  match s.literal with
  | none => s.freeFieldOnWords isLast span
  | some value => s.literalFieldOnWords value span

end Segment

/-- The layout of segments of which the first has the number `index`. -/
def layoutFromOnWords (index : Nat) :
    List Segment → Except (Halt (Nat × SegmentError)) (List Field)
  | [] => return []
  | s :: rest =>
    match s.fieldOnWords rest.isEmpty with
    | .error .overflow => throw .overflow
    | .error (.refused e) => throw (.refused (index, e))
    | .ok field => do
      let fields ← layoutFromOnWords (index + 1) rest
      return field :: fields

/-- The layout of segments. -/
def layoutOnWords (segments : List Segment) :
    Except (Halt (Nat × SegmentError)) (List Field) := layoutFromOnWords 0 segments

/-! ### Nothing leaves its range -/

namespace Field

/-- A number is encoded by the width of its field. -/
theorem encode_of_number {f : Field} {value : Value} {x : Binary64} (hf : f.kind = .float)
    (hx : numberLiteral? value = some x) :
    f.encode value =
      if f.span.getD 8 = 4 then .ok (f.order.encode 4 x.narrow)
      else if f.span.getD 8 = 8 then .ok (f.order.encode 8 x.word)
      else .error (.unsupportedWidth .float (8 * UInt64.ofNat (f.span.getD 8))) := by
  cases value with
  | float | int =>
    cases hx
    by_cases h4 : f.span.getD 8 = 4
    · simp only [encode, hf, h4, if_true]
    · rw [if_neg h4]
      by_cases h8 : f.span.getD 8 = 8
      · simp only [encode, hf, h8, if_true]
      · simp [encode, hf, h8]
  | undefined | null | bool | string | atom | bytes | list | map | object => cases hx

theorem encode_of_no_number {f : Field} {value : Value} (hf : f.kind = .float)
    (hx : numberLiteral? value = none) :
    f.encode value = .error (.invalidLiteral .float value.typeName) := by
  obtain ⟨kind, span, literal, signed, order⟩ := f
  obtain rfl : kind = .float := hf
  cases value with
  | float | int => cases hx
  | undefined | null | bool | string | atom | bytes | list | map | object => rfl

/-- **Literals are encoded on words** as they are with natural numbers. -/
theorem encodeOnWords_eq {f : Field} (h : ∀ n, f.span = some n → n < 2 ^ 61) (value : Value) :
    f.encodeOnWords value = (f.encode value).mapError .refused := by
  obtain ⟨kind, span, literal, signed, order⟩ := f
  have hspan : ∀ k, k < 2 ^ 61 → span.getD k < 2 ^ 61 := by
    intro k hk
    cases span with
    | none => exact hk
    | some n => exact h n rfl
  cases kind with
  | integer =>
    cases value with
    | int n => exact integerBytesOnWords_eq (hspan 1 (by decide)) order n
    | undefined | null | bool | float | string | atom | bytes | list | map | object => rfl
  | float =>
    cases hx : numberLiteral? value with
    | none =>
      rw [encode_of_no_number rfl hx]
      simp only [encodeOnWords, hx]
      rfl
    | some x =>
      rw [encode_of_number rfl hx]
      simp only [encodeOnWords, hx, numberBytesOnWords, unsupportedOnWords_eq (hspan 8 (by decide))]
      split
      · rfl
      · split
        · rfl
        · rfl
  | bitstring | binary | utf8 | utf16 | utf32 => rfl

/-- **Bytes are decoded on words** as they are with natural numbers. -/
theorem decodeOnWords_eq (f : Field) (chunk : List UInt8) :
    f.decodeOnWords chunk = .ok (f.decode? chunk) := by
  obtain ⟨kind, span, literal, signed, order⟩ := f
  cases kind with
  | integer =>
    show (integerOnWords? signed order chunk >>= fun n => pure (n.map Value.int)) = _
    rw [integerOnWords?_eq]
    show Except.ok ((if _ then _ else none).map Value.int) = Except.ok (if _ then _ else none)
    rw [apply_ite (Option.map Value.int)]
    rfl
  | float | bitstring | binary | utf8 | utf16 | utf32 => rfl

end Field

namespace Segment

variable {s : Segment} {isLast : Bool} {e : SegmentError} {n : Nat} {bits : UInt64}

/-- The width in bits does not wrap around. -/
theorem toNat_bitWidth? : s.bitWidth?.map UInt64.toNat = s.exactWidth? := by
  rw [bitWidth?, exactWidth?, Option.map_map]
  congr 1
  funext size
  exact Word.toNat_mul _ _

theorem exactWidth?_lt (h : s.exactWidth? = some n) : n < 2 ^ 64 := by
  obtain ⟨size, _, rfl⟩ := Option.map_eq_some_iff.mp h
  exact Word.mul_lt _ _

/-- The width in bytes, if it is the exact width in bits that is known. -/
theorem declaredSpan_of_exactWidth? (h : s.exactWidth? = some n) : s.declaredSpan =
    if n % 8 = 0 then .ok (some (n / 8)) else .error (.unaligned (UInt64.ofNat n)) := by
  rw [← toNat_bitWidth?] at h
  obtain ⟨bits, hbits, rfl⟩ := Option.map_eq_some_iff.mp h
  have halign : bits % 8 = 0 ↔ bits.toNat % 8 = 0 := by
    rw [← UInt64.toNat_inj, UInt64.toNat_mod]
    rfl
  rw [declaredSpan, hbits, UInt64.ofNat_toNat]
  simp only [halign, UInt64.toNat_div]
  rfl

theorem declaredSpan_of_exactWidth?_eq_none (h : s.exactWidth? = none) :
    s.declaredSpan = .ok none := by
  rw [← toNat_bitWidth?, Option.map_eq_none_iff] at h
  rw [declaredSpan, h]

theorem spanOnWords_eq : s.spanOnWords = s.declaredSpan.mapError .refused := by
  rw [spanOnWords]
  cases hsize : s.size <|> s.kind.defaultSize? with
  | none =>
    have hwidth : s.exactWidth? = none := by rw [exactWidth?, hsize, Option.map_none]
    rw [declaredSpan_of_exactWidth?_eq_none hwidth]
    rfl
  | some size =>
    have hwidth : s.exactWidth? =
        some ((s.unit.getD s.kind.defaultUnit).toNat * size.toNat) := by
      rw [exactWidth?, hsize, Option.map_some]
    have hlt := exactWidth?_lt hwidth
    show (Halt.unless (Word.mul? 64 _ size.toNat) >>= _) = _
    rw [declaredSpan_of_exactWidth? hwidth, Word.mul?_of_lt hlt, Halt.unless_bind,
      Word.ofNat?_of_lt (by omega)]
    split
    · rfl
    · rfl

theorem freeFieldOnWords_eq {span : Option Nat} (h : ∀ n, span = some n → n < 2 ^ 61)
    (isLast : Bool) :
    s.freeFieldOnWords isLast span = (s.freeField isLast span).mapError .refused := by
  rw [freeFieldOnWords, freeField, checkIntegerSpanOnWords_eq h]
  by_cases hopen : (span.isNone && !isLast) = true
  · rw [if_pos hopen, if_pos hopen]
    rfl
  · rw [if_neg hopen, if_neg hopen]
    by_cases hk : s.kind = .integer
    · rw [if_pos hk, if_pos hk]
      cases checkIntegerSpan span <;> rfl
    · rw [if_neg hk, if_neg hk]
      rfl

theorem literalFieldOnWords_eq {span : Option Nat} (h : ∀ n, span = some n → n < 2 ^ 61)
    (value : Value) :
    s.literalFieldOnWords value span = (s.literalField value span).mapError .refused := by
  rw [literalFieldOnWords, literalField, Field.encodeOnWords_eq h]
  cases Field.encode ⟨s.kind, span, none, s.isSigned, s.order⟩ value with
  | error e => rfl
  | ok content =>
    show (if span.any (· != content.length) then _ else _) =
      (if span.any (· != content.length) then _ else _ : Except _ _).mapError Halt.refused
    split
    · rfl
    · rfl

/-- **A segment is laid out on words** as it is with natural numbers. -/
theorem fieldOnWords_eq (isLast : Bool) :
    s.fieldOnWords isLast = (s.field isLast).mapError .refused := by
  rw [fieldOnWords, spanOnWords_eq, field]
  cases hspan : s.declaredSpan with
  | error e => rfl
  | ok span =>
    have hlt : ∀ n, span = some n → n < 2 ^ 61 := by
      rintro n rfl
      exact declaredSpan_lt hspan
    cases s.literal with
    | none => exact freeFieldOnWords_eq hlt isLast
    | some value => exact literalFieldOnWords_eq hlt value

/-! ### Widths that are reported -/

theorem exactWidth?_of_declaredSpan (h : s.declaredSpan = .ok (some n)) :
    s.exactWidth? = some (8 * n) := by
  cases hw : s.exactWidth? with
  | none =>
    rw [declaredSpan_of_exactWidth?_eq_none hw] at h
    cases h
  | some w =>
    rw [declaredSpan_of_exactWidth? hw] at h
    split at h
    · cases h
      congr 1
      omega
    · cases h

theorem eq_of_declaredSpan_error (h : s.declaredSpan = .error e) :
    ∃ w, s.exactWidth? = some w ∧ ¬8 ∣ w ∧ e = .unaligned (UInt64.ofNat w) := by
  cases hw : s.exactWidth? with
  | none =>
    rw [declaredSpan_of_exactWidth?_eq_none hw] at h
    cases h
  | some w =>
    rw [declaredSpan_of_exactWidth? hw] at h
    split at h
    · cases h
    · cases h
      exact ⟨w, rfl, by omega, rfl⟩

theorem eq_of_checkIntegerSpan_error (h : checkIntegerSpan (some n) = .error e) :
    e = .unsupportedWidth .integer (8 * UInt64.ofNat n) := by
  rw [checkIntegerSpan] at h
  split at h
  · cases h
  · cases h
    rfl

/-- An error of a literal reports the width of its field. -/
theorem reports_of_encode {f : Field} {value : Value}
    (hsome : f.kind = .integer ∨ f.kind = .float → ∃ n, f.span = some n)
    (h : f.encode value = .error e) : e.Reports f.kind f.span := by
  obtain ⟨kind, span, literal, signed, order⟩ := f
  cases kind with
  | integer =>
    obtain ⟨n, rfl⟩ : ∃ n, span = some n := hsome (.inl rfl)
    cases value with
    | int m =>
      obtain hcheck | ⟨_, _, h⟩ := bind_eq_error_iff.mp h
      · exact .inr ⟨n, rfl, eq_of_checkIntegerSpan_error hcheck⟩
      · cases h
    | undefined | null | bool | float | string | atom | bytes | list | map | object =>
      cases h
      exact .inl rfl
  | float =>
    obtain ⟨n, rfl⟩ : ∃ n, span = some n := hsome (.inr rfl)
    cases hx : numberLiteral? value with
    | none =>
      rw [Field.encode_of_no_number rfl hx] at h
      cases h
      exact .inl rfl
    | some x =>
      rw [Field.encode_of_number rfl hx] at h
      split at h
      · cases h
      · split at h
        · cases h
        · cases h
          exact .inr ⟨n, rfl, rfl⟩
  | bitstring | binary =>
    cases value with
    | string | bytes => cases h
    | undefined | null | bool | int | float | atom | list | map | object =>
      cases h
      exact .inl rfl
  | utf8 | utf16 | utf32 =>
    simp only [Field.encode] at h
    split at h
    · cases h
    · cases h
      exact .inl rfl

theorem reports_of_freeField {span : Option Nat} (hsome : s.kind = .integer → ∃ n, span = some n)
    (h : s.freeField isLast span = .error e) : e.Reports s.kind span := by
  rw [freeField] at h
  by_cases hopen : (span.isNone && !isLast) = true
  · rw [if_pos hopen] at h
    cases h
    exact .inl rfl
  · rw [if_neg hopen] at h
    by_cases hk : s.kind = .integer
    · obtain ⟨n, rfl⟩ := hsome hk
      rw [if_pos hk] at h
      obtain hcheck | ⟨_, _, h⟩ := bind_eq_error_iff.mp h
      · exact .inr ⟨n, rfl, by rw [hk, eq_of_checkIntegerSpan_error hcheck]⟩
      · cases h
    · rw [if_neg hk] at h
      cases h

theorem reports_of_literalField {span : Option Nat} {value : Value}
    (hsome : s.kind = .integer ∨ s.kind = .float → ∃ n, span = some n)
    (h : s.literalField value span = .error e) : e.Reports s.kind span := by
  obtain hencode | ⟨content, _, h⟩ := bind_eq_error_iff.mp h
  · exact reports_of_encode hsome hencode
  · split at h
    · cases h
      exact .inl rfl
    · cases h

/-- What can be wrong with a segment: its width is not a number of bytes, or the error reports this
number. -/
theorem error_of_field (h : s.field isLast = .error e) :
    s.declaredSpan = .error e ∨ ∃ span, s.declaredSpan = .ok span ∧ e.Reports s.kind span := by
  obtain hspan | ⟨span, hspan, h⟩ := bind_eq_error_iff.mp h
  · exact .inl hspan
  · refine .inr ⟨span, hspan, ?_⟩
    -- Numbers have a size, of their own or by their type.
    have hsome : s.kind = .integer ∨ s.kind = .float → ∃ n, span = some n := by
      intro hk
      cases span with
      | none =>
        obtain ⟨_, hinteger, hfloat⟩ := declaredSpan_eq_ok_none_iff.mp hspan
        exact absurd hk (not_or.mpr ⟨hinteger, hfloat⟩)
      | some n => exact ⟨n, rfl⟩
    cases hs : s.literal with
    | none =>
      rw [hs] at h
      exact reports_of_freeField (fun hk => hsome (.inl hk)) h
    | some value =>
      rw [hs] at h
      exact reports_of_literalField hsome h

/-- **A width that is reported is the exact one.** -/
theorem exactWidth?_of_field_error (h : s.field isLast = .error e) (hbits : e.width? = some bits) :
    s.exactWidth? = some bits.toNat := by
  obtain hspan | ⟨_, hspan, hnone | ⟨n, rfl, rfl⟩⟩ := error_of_field h
  · obtain ⟨w, hw, _, rfl⟩ := eq_of_declaredSpan_error hspan
    cases hbits
    rw [hw, UInt64.toNat_ofNat_of_lt' (exactWidth?_lt hw)]
  · rw [hnone] at hbits
    cases hbits
  · cases hbits
    rw [exactWidth?_of_declaredSpan hspan, Word.toNat_eight_mul (declaredSpan_lt hspan)]

/-- **A segment with a size is unaligned** exactly if its width is no multiple of eight. -/
theorem exists_unaligned_iff (h : s.exactWidth? = some n) :
    (∃ bits, s.field isLast = .error (.unaligned bits)) ↔ ¬8 ∣ n := by
  constructor
  · rintro ⟨bits, hbits⟩
    obtain hspan | ⟨_, _, hnone | ⟨_, _, hother⟩⟩ := error_of_field hbits
    · obtain ⟨w, hw, hdvd, _⟩ := eq_of_declaredSpan_error hspan
      rw [h] at hw
      rwa [Option.some.inj hw]
    · cases hnone
    · cases hother
  · intro hdvd
    have hspan := declaredSpan_of_exactWidth? h
    rw [if_neg (by omega)] at hspan
    exact ⟨_, by rw [field, hspan]; rfl⟩

end Segment

/-- **A list of segments is laid out on words** as it is with natural numbers. -/
theorem layoutFromOnWords_eq (index : Nat) (segments : List Segment) :
    layoutFromOnWords index segments = (layoutFrom index segments).mapError .refused := by
  induction segments generalizing index with
  | nil => rfl
  | cons s rest ih =>
    rw [layoutFromOnWords, layoutFrom, Segment.fieldOnWords_eq, ih]
    cases s.field rest.isEmpty with
    | error e => rfl
    | ok f => cases layoutFrom (index + 1) rest <;> rfl

/-- A layout with an error: it is that of the first segment, or that of the layout of the others. -/
theorem layoutFrom_cons_eq_error_iff {index : Nat} {s : Segment} {rest : List Segment}
    {e : Nat × SegmentError} : layoutFrom index (s :: rest) = .error e ↔
      (e.1 = index ∧ s.field rest.isEmpty = .error e.2) ∨
        (∃ f, s.field rest.isEmpty = .ok f) ∧ layoutFrom (index + 1) rest = .error e := by
  rw [layoutFrom]
  cases hs : s.field rest.isEmpty with
  | error e' =>
    simp only [Except.error.injEq, reduceCtorEq, exists_false, false_and, or_false, Prod.ext_iff]
    rw [eq_comm]
  | ok f =>
    simp only [reduceCtorEq, and_false, Except.ok.injEq, exists_eq', true_and, false_or]
    cases layoutFrom (index + 1) rest <;> simp

/-- **An error is that of the first segment that cannot be laid out.** -/
theorem layoutFrom_eq_error_iff {index : Nat} {segments : List Segment}
    {e : Nat × SegmentError} : layoutFrom index segments = .error e ↔
      ∃ before s after, segments = before ++ s :: after ∧
        (∀ t ∈ before, ∃ f, t.field false = .ok f) ∧ e.1 = index + before.length ∧
        s.field after.isEmpty = .error e.2 := by
  induction segments generalizing index with
  | nil =>
    refine iff_of_false (fun h => by cases h) ?_
    rintro ⟨before, s, after, hnil, _⟩
    exact absurd hnil.symm (List.append_ne_nil_of_right_ne_nil _ (List.cons_ne_nil _ _))
  | cons first rest ih =>
    rw [layoutFrom_cons_eq_error_iff, ih]
    constructor
    · rintro (⟨hindex, hfirst⟩ | ⟨hfirst, before, s, after, rfl, hbefore, hindex, hs⟩)
      · exact ⟨[], first, rest, rfl, by simp, hindex, hfirst⟩
      · have hmore : (before ++ s :: after).isEmpty = false := by simp
        rw [hmore] at hfirst
        refine ⟨first :: before, s, after, rfl, List.forall_mem_cons.mpr ⟨hfirst, hbefore⟩, ?_, hs⟩
        rw [hindex, List.length_cons]
        omega
    · rintro ⟨before, s, after, hsplit, hbefore, hindex, hs⟩
      obtain ⟨rfl, hrest⟩ | ⟨before, rfl, rfl⟩ := List.cons_eq_append_iff.mp hsplit
      · cases hrest
        exact .inl ⟨hindex, hs⟩
      · rw [List.forall_mem_cons] at hbefore
        have hmore : (before ++ s :: after).isEmpty = false := by simp
        refine .inr ⟨by rw [hmore]; exact hbefore.1, before, s, after, rfl, hbefore.2, ?_, hs⟩
        rw [hindex, List.length_cons]
        omega

/-! ### All widths of a list -/

namespace Segment

/-- What is computed from the width of a segment is exact. -/
structure HasExactWidth (s : Segment) : Prop where
  /-- The product of unit and size has 64 bits at most. -/
  width_lt : ∀ n, s.exactWidth? = some n → n < 2 ^ 64
  bitWidth_eq : s.bitWidth?.map UInt64.toNat = s.exactWidth?
  /-- As many bytes can be addressed in memory. -/
  address_eq : ∀ n, s.exactWidth? = some n → Word.ofNat? 64 (n / 8) = some (n / 8)
  /-- On words the width in bytes is the same, or the same error. -/
  span_eq : s.spanOnWords = s.declaredSpan.mapError .refused
  /-- And so are the bytes of every literal, once the width in bytes is there. -/
  encode_eq : ∀ span, s.declaredSpan = .ok span → ∀ value,
    s.blank.encodeOnWords value = (s.blank.encode value).mapError .refused

theorem hasExactWidth (s : Segment) : s.HasExactWidth where
  width_lt _ h := exactWidth?_lt h
  bitWidth_eq := toNat_bitWidth?
  address_eq n h := Word.ofNat?_of_lt (Nat.lt_of_le_of_lt (Nat.div_le_self n 8) (exactWidth?_lt h))
  span_eq := spanOnWords_eq
  encode_eq span hspan value := by
    refine Field.encodeOnWords_eq (fun n hn => ?_) value
    rw [span_blank hspan] at hn
    exact declaredSpan_lt (hn ▸ hspan)

end Segment

/-- **Widths are exact.**  On words segments are laid out and bytes are decoded as they are with
natural numbers, and nothing leaves the range of its words.  An error that reports a width reports
unit times size, and a segment with a size is unaligned, if laying out comes to it, exactly if this
product is no multiple of eight. -/
theorem widths_are_exact (segments : List Segment) :
    (∀ s ∈ segments, s.HasExactWidth) ∧
    layoutOnWords segments = (layout segments).mapError .refused ∧
    (∀ i e bits, layout segments = .error (i, e) → e.width? = some bits →
      ∃ s, segments[i]? = some s ∧ s.exactWidth? = some bits.toNat) ∧
    (∀ before s after n, segments = before ++ s :: after →
      (∀ t ∈ before, ∃ f, t.field false = .ok f) → s.exactWidth? = some n →
        ((∃ bits, layout segments = .error (before.length, .unaligned bits)) ↔ ¬8 ∣ n)) ∧
    ∀ (f : Field) (chunk : List UInt8), f.decodeOnWords chunk = .ok (f.decode? chunk) := by
  refine ⟨fun s _ => s.hasExactWidth, layoutFromOnWords_eq 0 segments, ?_, ?_,
    Field.decodeOnWords_eq⟩
  · intro i e bits h hbits
    obtain ⟨before, s, after, rfl, _, hindex, hs⟩ := layoutFrom_eq_error_iff.mp h
    obtain rfl : i = before.length := hindex.trans (Nat.zero_add _)
    exact ⟨s, by simp, Segment.exactWidth?_of_field_error hs hbits⟩
  · rintro before s after n rfl hbefore hwidth
    have hunaligned : (∃ bits, s.field after.isEmpty = .error (.unaligned bits)) ↔ ¬8 ∣ n :=
      Segment.exists_unaligned_iff hwidth
    rw [← hunaligned]
    refine exists_congr fun bits => ?_
    constructor
    · intro h
      obtain ⟨before', s', after', hsplit, _, hindex, hs⟩ := layoutFrom_eq_error_iff.mp h
      -- The segments before are as many, so it is the same segment.
      obtain ⟨rfl, hsame⟩ := List.append_inj hsplit (hindex.trans (Nat.zero_add _))
      cases hsame
      exact hs
    · intro h
      exact layoutFrom_eq_error_iff.mpr
        ⟨before, s, after, rfl, hbefore, (Nat.zero_add _).symm, h⟩

/-- A tag of two bytes, and then a text of as many bits as sizes and units can make up. -/
def widestText : List Segment :=
  [⟨some (.int 1), .integer, some 16, none, []⟩,
    ⟨none, .binary, some 4294967295, some 4294967295, []⟩]

/-- The largest width is no multiple of eight, and it is reported without loss. -/
theorem widths_are_exact_widest :
    layout widestText = .error (1, .unaligned 18446744065119617025) ∧
    (∃ s, widestText[1]? = some s ∧ s.exactWidth? = some 18446744065119617025 ∧
      s.HasExactWidth) ∧
    ¬8 ∣ 18446744065119617025 ∧
    (⟨some (.int 1), .integer, some 16, none, []⟩ : Segment).blank.encodeOnWords (.int (-2)) =
      .ok [255, 254] ∧
    (⟨.integer, some 3, none, true, .little⟩ : Field).decodeOnWords [254, 255, 255] =
      .ok (some (.int (-2))) := by
  obtain ⟨hexact, _, hreported, hunaligned, hdecode⟩ := widths_are_exact widestText
  have hodd : ¬8 ∣ 18446744065119617025 := by decide
  have htag : ∀ t ∈ widestText.take 1, ∃ f, t.field false = .ok f := by
    intro t ht
    obtain rfl := List.mem_singleton.mp ht
    exact ⟨_, rfl⟩
  obtain ⟨bits, hbits⟩ := (hunaligned (widestText.take 1) _ [] _ rfl htag rfl).mpr hodd
  obtain ⟨s, hs, hwidth⟩ := hreported 1 _ bits hbits rfl
  obtain rfl : bits = 18446744065119617025 := by
    rw [← UInt64.toNat_inj]
    cases hs
    exact (Option.some.inj hwidth).symm
  have hencode := (hexact _ List.mem_cons_self).encode_eq _ rfl (.int (-2))
  exact ⟨hbits, ⟨s, hs, hwidth, hexact s (List.mem_of_getElem? hs)⟩, hodd, hencode, hdecode _ _⟩

end StructuralMatching
