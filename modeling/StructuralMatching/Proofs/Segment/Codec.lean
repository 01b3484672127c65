/-
What a free segment reads, written as the literal of a segment.

* `encode_twosComplement` — an integer is written as the bytes it was read from;
* `SegmentType.isBytewise` — the types that read every byte as a character of its own;
* `Field.written` — the bytes that a reading is written as;
* `Field.encode_of_decode?` — they are what the literal of the reading is encoded as;
* `Field.written_eq_iff` — they are the bytes that were read, unless these were read one character
  each and are not ASCII.

Design notes: floating-point numbers are left out.  Narrow ones are read into the wide format and
rounded when they are written.
-/
import Mathlib.Data.Int.ModEq
import Mathlib.Tactic.Zify
import StructuralMatching.Proofs.Text.RoundTrip
import StructuralMatching.Segment.Codec

namespace StructuralMatching

/-! ### Words of one to eight bytes -/

/-- A number is written by its remainder modulo the number of words of this width. -/
theorem ByteOrder.encode_mod (order : ByteOrder) (width n : Nat) :
    order.encode width (n % 256 ^ width) = order.encode width n := by
  have h := order.encode_decode (order.encode width n)
  rwa [length_encode, decode_encode] at h

theorem twosComplement_ofInt (z : Int) : (twosComplement (Int64.ofInt z) : Int) = z % 2 ^ 64 := by
  have h : twosComplement (Int64.ofInt z) = (z % (2 ^ 64 : Nat)).toNat := BitVec.toNat_ofInt z
  rw [h, Int.toNat_of_nonneg (Int.emod_nonneg z (by decide))]
  rfl

/-- In at most eight bytes an integer and its two's complement are the same word. -/
theorem twosComplement_mod {width word : Nat} {z : Int} (hwidth : width ≤ 8)
    (h : z % 256 ^ width = word) : twosComplement (Int64.ofInt z) % 256 ^ width = word := by
  have hdvd : (256 ^ width : Int) ∣ 2 ^ 64 := pow_dvd_pow 256 hwidth
  zify
  rw [twosComplement_ofInt, Int.emod_emod_of_dvd z hdvd, h]

/-- The integer that a word stands for leaves this word as its remainder. -/
theorem twosComplement_of_integerOfWord? {signed : Bool} {width word : Nat} {n : Int64}
    (hwidth : width ≤ 8) (hword : word < 256 ^ width)
    (h : integerOfWord? signed width word = some n) : twosComplement n % 256 ^ width = word := by
  have hsmall : (word : Int) % 256 ^ width = word :=
    Int.emod_eq_of_lt (Int.natCast_nonneg word) (by exact_mod_cast hword)
  rw [integerOfWord?] at h
  split at h
  · cases h
    refine twosComplement_mod hwidth ?_
    split
    · exact hsmall
    · rw [Int.sub_emod_right, hsmall]
  · split at h
    · cases h
      exact twosComplement_mod hwidth hsmall
    · cases h

/-- **An integer is written as the bytes it was read from.** -/
theorem encode_twosComplement {order : ByteOrder} {signed : Bool} {chunk : List UInt8} {n : Int64}
    (hwidth : chunk.length ≤ 8)
    (h : integerOfWord? signed chunk.length (order.decode chunk) = some n) :
    order.encode chunk.length (twosComplement n) = chunk := by
  rw [← order.encode_mod,
    twosComplement_of_integerOfWord? hwidth (order.decode_lt chunk) h, order.encode_decode]

/-! ### Readings of every type -/

/-- Whether every byte is read as a character of its own. -/
def SegmentType.isBytewise : SegmentType → Bool
  | .binary | .utf8 => true
  | _ => false

namespace Field

theorem decode?_of_isBytewise {f : Field} (hb : f.kind.isBytewise) (chunk : List UInt8) :
    f.decode? chunk = some (.string (Text.latin1 chunk)) := by
  obtain ⟨kind, span, literal, signed, order⟩ := f
  cases kind with
  | binary | utf8 => rfl
  | integer | float | bitstring | utf16 | utf32 => cases hb

/-- The bytes that the reading of a piece is written as. -/
def written (f : Field) (chunk : List UInt8) : List UInt8 :=
  if f.kind.isBytewise then Text.utf8 (Text.latin1 chunk) else chunk

theorem written_eq_iff {f : Field} {chunk : List UInt8} :
    f.written chunk = chunk ↔ (f.kind.isBytewise → Text.IsAscii chunk) := by
  rw [written]
  split
  · rename_i hb
    rw [Text.utf8_latin1_eq_iff]
    exact ⟨fun h _ => h, fun h => h hb⟩
  · rename_i hb
    exact ⟨fun _ h => absurd h hb, fun _ => rfl⟩

theorem length_le_written (f : Field) (chunk : List UInt8) :
    chunk.length ≤ (f.written chunk).length := by
  rw [written]
  split
  · rw [Text.length_utf8_latin1]
    exact Nat.le_add_right _ _
  · exact Nat.le_refl _

theorem length_lt_written {f : Field} {chunk : List UInt8} (hb : f.kind.isBytewise)
    (h : ¬Text.IsAscii chunk) : chunk.length < (f.written chunk).length := by
  rw [written, if_pos hb]
  exact Text.length_lt_utf8_latin1 h

/-- **What a free segment reads can be written as a literal.**  The bytes are those that were read,
but for text that was read one character for every byte. -/
theorem encode_of_decode? {f : Field} {chunk : List UInt8} {v : Value} (hfloat : f.kind ≠ .float)
    (hspan : f.kind = .integer → f.span = some chunk.length) (h : f.decode? chunk = some v) :
    f.encode v = .ok (f.written chunk) := by
  obtain ⟨kind, span, literal, signed, order⟩ := f
  cases kind with
  | float => exact absurd rfl hfloat
  | integer =>
    replace h : (if 1 ≤ chunk.length ∧ chunk.length ≤ 8 then
      (integerOfWord? signed chunk.length (order.decode chunk)).map Value.int
      else none) = some v := h
    split at h
    · rename_i hwidth
      obtain ⟨n, hn, rfl⟩ := Option.map_eq_some_iff.mp h
      obtain rfl : span = some chunk.length := hspan rfl
      have hcheck : checkIntegerSpan (some chunk.length) = .ok () := if_pos hwidth
      show (checkIntegerSpan (some chunk.length) >>= fun _ =>
        .ok (order.encode chunk.length (twosComplement n))) = .ok chunk
      rw [hcheck, encode_twosComplement hwidth.2 hn]
      rfl
    · cases h
  | bitstring => cases h; rfl
  | binary => cases h; rfl
  | utf8 => cases h; rfl
  | utf16 =>
    obtain ⟨pieces, hpieces, h⟩ := Option.bind_eq_some_iff.mp h
    obtain ⟨s, hs, h⟩ := Option.bind_eq_some_iff.mp h
    cases h
    have hunits : Text.utf16 s = pieces.map order.decode := by
      refine Text.utf16_of_ofUtf16? hs fun unit hu => ?_
      obtain ⟨piece, hp, rfl⟩ := List.mem_map.mp hu
      -- Two bytes make a unit of 16 bits.
      have hlt := order.decode_lt piece
      rwa [(chunksOf?_eq_some hpieces).2 piece hp] at hlt
    show Except.ok ((Text.utf16 s).flatMap (order.encode 2)) = .ok chunk
    rw [hunits, order.flatMap_encode_decode hpieces]
  | utf32 =>
    obtain ⟨pieces, hpieces, h⟩ := Option.bind_eq_some_iff.mp h
    obtain ⟨s, hs, h⟩ := Option.bind_eq_some_iff.mp h
    cases h
    show Except.ok ((Text.utf32 s).flatMap (order.encode 4)) = .ok chunk
    rw [Text.utf32_of_ofUtf32? hs, order.flatMap_encode_decode hpieces]

end Field

end StructuralMatching
