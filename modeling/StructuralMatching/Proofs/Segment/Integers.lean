/-
Integers in segments of one to eight bytes.

A literal keeps only the remainder of its integer, and no sign.  What a free segment makes of these
bytes depends on whether it has one.

* `ByteOrder.place`, `ByteOrder.top?` — what a byte counts by its position, and the one that counts
  most;
* `ByteOrder.IsWord` — bytes are those of a number;
* `InRange` — the integers of a width, with or without a sign;
* `IsReduced` — the one of them that leaves the same remainder as an integer;
* `integerOfWord?_isReduced`, `integerOfWord?_eq_none_iff` — what a word stands for;
* `Field.Reads`, `Field.Refuses` — what becomes of the bytes of a segment;
* `Segment.integers_correspond` — literals and free segments of one layout.

Design notes: `2 ^ (8 * width)` words of a width are as many as the integers in its range, so an
integer is found by its remainder.  Only without a sign and in eight bytes the range goes beyond the
integers that there are.
-/
import Mathlib.Algebra.Order.Group.Unbundled.Int
import StructuralMatching.Proofs.Segment.Cut
import StructuralMatching.Proofs.Segment.Codec
import StructuralMatching.Proofs.Segment.Duality

namespace StructuralMatching

/-! ### The bytes of a number -/

namespace ByteOrder

/-- The position of a byte, counted from the one that counts least. -/
def place (order : ByteOrder) (width i : Nat) : Nat :=
  match order with
  | .little => i
  | .big => width - 1 - i

/-- The byte that counts most. -/
def top? (order : ByteOrder) (bytes : List UInt8) : Option UInt8 :=
  match order with
  | .little => bytes.getLast?
  | .big => bytes.head?

/-- The most significant bit is set. -/
def TopBit (order : ByteOrder) (bytes : List UInt8) : Prop :=
  ∃ b, order.top? bytes = some b ∧ b.toNat.testBit 7

/-- There are `width` bytes, and each of them is the digit of a number at its place. -/
structure IsWord (order : ByteOrder) (width n : Nat) (bytes : List UInt8) : Prop where
  length_eq : bytes.length = width
  getElem?_eq : ∀ i < width, bytes[i]? = some (UInt8.ofNat (n / 256 ^ order.place width i))

theorem getElem?_leastFirst {width i : Nat} (hi : i < width) (n : Nat) :
    (leastFirst width n)[i]? = some (UInt8.ofNat (n / 256 ^ i)) := by
  induction width generalizing n i with
  | zero => omega
  | succ width ih =>
    cases i with
    | zero => rw [Nat.pow_zero, Nat.div_one]; rfl
    | succ i =>
      have hrest := ih (Nat.lt_of_succ_lt_succ hi) (n / 256)
      rw [leastFirst, List.getElem?_cons_succ, hrest, Nat.div_div_eq_div_mul, Nat.pow_succ,
        Nat.mul_comm 256]

theorem isWord_encode (order : ByteOrder) (width n : Nat) :
    order.IsWord width n (order.encode width n) := by
  refine ⟨order.length_encode width n, fun i hi => ?_⟩
  cases order with
  | little => exact getElem?_leastFirst hi n
  | big =>
    have hback : width - 1 - i < width := by omega
    rw [encode, List.getElem?_reverse (by rw [length_leastFirst]; exact hi), length_leastFirst]
    exact getElem?_leastFirst hback n

theorem ofLeastFirst_concat (bytes : List UInt8) (b : UInt8) :
    ofLeastFirst (bytes ++ [b]) = ofLeastFirst bytes + 256 ^ bytes.length * b.toNat := by
  induction bytes with
  | nil => simp [ofLeastFirst]
  | cons a bytes ih =>
    rw [List.cons_append, ofLeastFirst, ofLeastFirst, ih, List.length_cons, Nat.pow_succ,
      Nat.mul_add, ← Nat.add_assoc, ← Nat.mul_assoc, Nat.mul_comm 256 (256 ^ _)]

/-- A number of eight bytes is too large for an integer if the most significant bit is set. -/
theorem le_ofLeastFirst_iff {bytes : List UInt8} (h : bytes.length = 8) :
    2 ^ 63 ≤ ofLeastFirst bytes ↔ ∃ b, bytes.getLast? = some b ∧ b.toNat.testBit 7 := by
  obtain ⟨front, b, rfl⟩ : ∃ front b, bytes = front ++ [b] :=
    ⟨bytes.dropLast, bytes.getLast (by rintro rfl; cases h),
      (List.dropLast_append_getLast _).symm⟩
  have hfront : front.length = 7 := by
    rw [List.length_append, List.length_singleton] at h
    omega
  have hlow := ofLeastFirst_lt front
  have hb := b.toNat_lt
  rw [hfront] at hlow
  -- All seven bytes below count less than the lowest bit of the last one.
  rw [ofLeastFirst_concat, hfront, List.getLast?_concat]
  have hbit : b.toNat.testBit 7 = true ↔ 128 ≤ b.toNat := by
    rw [Nat.testBit_eq_decide_div_mod_eq, decide_eq_true_iff]
    omega
  constructor
  · intro hle
    exact ⟨b, rfl, hbit.mpr (by omega)⟩
  · rintro ⟨_, hsame, hset⟩
    obtain rfl := Option.some.inj hsame
    have hlarge := hbit.mp hset
    omega

theorem le_decode_iff {order : ByteOrder} {bytes : List UInt8} (h : bytes.length = 8) :
    2 ^ 63 ≤ order.decode bytes ↔ order.TopBit bytes := by
  cases order with
  | little => exact le_ofLeastFirst_iff h
  | big =>
    have hlen : bytes.reverse.length = 8 := by rw [List.length_reverse, h]
    have hback := le_ofLeastFirst_iff hlen
    rw [List.getLast?_reverse] at hback
    exact hback

end ByteOrder

/-! ### The integers of a width -/

/-- The integers of `width` bytes, from those below zero on if there is a sign. -/
def InRange (signed : Bool) (width : Nat) (z : Int) : Prop :=
  if signed then -2 ^ (8 * width - 1) ≤ z ∧ z < 2 ^ (8 * width - 1)
  else 0 ≤ z ∧ z < 2 ^ (8 * width)

instance (signed : Bool) (width : Nat) (z : Int) : Decidable (InRange signed width z) :=
  inferInstanceAs (Decidable (if signed then _ ∧ _ else _ ∧ _))

/-- The remainder of an integer, as the number of a word of `width` bytes. -/
def residue (width : Nat) (n : Int64) : Nat := (n.toInt % 2 ^ (8 * width)).toNat

/-- The only integer of `width` bytes that leaves the same remainder. -/
structure IsReduced (signed : Bool) (width : Nat) (n m : Int64) : Prop where
  inRange : InRange signed width m.toInt
  modEq : m.toInt ≡ n.toInt [ZMOD 2 ^ (8 * width)]
  unique : ∀ z, InRange signed width z → z ≡ n.toInt [ZMOD 2 ^ (8 * width)] → z = m.toInt

section

variable {signed : Bool} {width word : Nat} {n m : Int64}

theorem two_pow_eq_two_mul (hw : 1 ≤ width) : (2 : Int) ^ (8 * width) = 2 * 2 ^ (8 * width - 1) := by
  rw [show 8 * width = 8 * width - 1 + 1 by omega, Int.pow_succ, Nat.add_sub_cancel, Int.mul_comm]

theorem pow_bytes (width : Nat) : (256 : Int) ^ width = 2 ^ (8 * width) :=
  (Int.pow_mul (a := 2) (n := 8)).symm

theorem cast_pow_bytes (width : Nat) : ((256 ^ width : Nat) : Int) = 2 ^ (8 * width) :=
  (Int.natCast_pow 256 width).trans (pow_bytes width)

/-- As many integers are in range as there are words. -/
theorem InRange.eq_of_modEq {y z : Int} (hw : 1 ≤ width) (hy : InRange signed width y)
    (hz : InRange signed width z) (h : y ≡ z [ZMOD 2 ^ (8 * width)]) : y = z := by
  have hhalf := two_pow_eq_two_mul hw
  have hnear : |z - y| < 2 ^ (8 * width) := by
    rw [InRange] at hy hz
    split at hy
    · rw [if_pos ‹_›] at hz
      rw [abs_lt]
      omega
    · rw [if_neg ‹_›] at hz
      rw [abs_lt]
      omega
  have hzero := Int.eq_zero_of_abs_lt_dvd h.dvd hnear
  omega

theorem residue_cast (width : Nat) (n : Int64) :
    (residue width n : Int) = n.toInt % 2 ^ (8 * width) := by
  have hpos := Nat.pow_pos (n := width) (show 0 < 256 by decide)
  have hcast := cast_pow_bytes width
  exact Int.toNat_of_nonneg (Int.emod_nonneg _ (by omega))

theorem residue_eq_iff : residue width m = residue width n ↔
    m.toInt ≡ n.toInt [ZMOD 2 ^ (8 * width)] := by
  rw [← Int.natCast_inj, residue_cast, residue_cast]
  rfl

theorem twosComplement_mod_eq_residue (hw : width ≤ 8) (n : Int64) :
    twosComplement n % 256 ^ width = residue width n := by
  have hmod : n.toInt % 256 ^ width = residue width n := by rw [pow_bytes, residue_cast]
  have h := twosComplement_mod hw hmod
  rwa [Int64.ofInt_toInt] at h

/-- Only numbers of eight bytes stand for no integer, and only without a sign. -/
theorem integerOfWord?_eq_none_iff :
    integerOfWord? signed width word = none ↔ signed = false ∧ 2 ^ 63 ≤ word := by
  rw [integerOfWord?]
  cases signed with
  | true => simp
  | false => simp

theorem inRange_of_integerOfWord? (hw : 1 ≤ width ∧ width ≤ 8) (hword : word < 256 ^ width)
    (h : integerOfWord? signed width word = some m) : InRange signed width m.toInt := by
  have hhalf := two_pow_eq_two_mul hw.1
  have hpow := pow_bytes width
  have hcast := cast_pow_bytes width
  have hmax : 256 ^ width ≤ 2 ^ 64 := Nat.pow_le_pow_right (n := 256) (by decide) hw.2
  rw [integerOfWord?] at h
  cases signed with
  | true =>
    cases h
    show -2 ^ (8 * width - 1) ≤ _ ∧ _ < 2 ^ (8 * width - 1)
    -- The upper half of the words is below zero.
    split
    · rw [Int64.toInt_ofInt_of_le (by omega) (by omega)]
      omega
    · rw [Int64.toInt_ofInt_of_le (by omega) (by omega)]
      omega
  | false =>
    show 0 ≤ _ ∧ _ < 2 ^ (8 * width)
    replace h : (if word < 2 ^ 63 then some (Int64.ofNat word) else none) = some m := h
    split at h
    · cases h
      rw [Int64.toInt_ofNat_of_lt ‹_›]
      omega
    · cases h

/-- What the word of an integer stands for: the only integer in range with its remainder. -/
theorem integerOfWord?_isReduced (hw : 1 ≤ width ∧ width ≤ 8)
    (h : integerOfWord? signed width (residue width n) = some m) :
    IsReduced signed width n m := by
  have hword : residue width n < 256 ^ width := by
    rw [← twosComplement_mod_eq_residue hw.2]
    exact Nat.mod_lt _ (Nat.pow_pos (by decide))
  have hm := inRange_of_integerOfWord? hw hword h
  have hsame := twosComplement_of_integerOfWord? hw.2 hword h
  rw [twosComplement_mod_eq_residue hw.2] at hsame
  have hmod := residue_eq_iff.mp hsame
  exact ⟨hm, hmod, fun z hz hzn => hz.eq_of_modEq hw.1 hm (hzn.trans hmod.symm)⟩

theorem residue_lt (width : Nat) (n : Int64) : residue width n < 256 ^ width := by
  have hpos := Nat.pow_pos (n := width) (show 0 < 256 by decide)
  have hcast := cast_pow_bytes width
  have hlt := Int.emod_lt_of_pos n.toInt (b := 2 ^ (8 * width)) (by omega)
  have hres := residue_cast width n
  omega

theorem width_eq_eight (hw : width ≤ 8) (hword : word < 256 ^ width) (h : 2 ^ 63 ≤ word) :
    width = 8 := by
  by_contra hne
  have hmax : 256 ^ width ≤ 256 ^ 7 := Nat.pow_le_pow_right (by decide) (by omega)
  omega

/-- The remainder of an integer is too large for one if the integer is below zero and all its bytes
are kept. -/
theorem le_residue_iff (hw : width ≤ 8) :
    2 ^ 63 ≤ residue width n ↔ width = 8 ∧ n < 0 := by
  have hlow := n.le_toInt
  have hhigh := n.toInt_lt
  have hneg : n < 0 ↔ n.toInt < 0 := Int64.lt_iff_toInt_lt
  rw [hneg]
  constructor
  · intro hle
    obtain rfl := width_eq_eight hw (residue_lt width n) hle
    have hres := residue_cast 8 n
    omega
  · rintro ⟨rfl, hn⟩
    have hres := residue_cast 8 n
    omega

end

/-! ### The bytes of one segment -/

namespace Field

/-- The bytes are read as a value, which is bound. -/
def Reads (f : Field) (chunk : List UInt8) (v : Value) : Prop :=
  ∀ out, f.attempt chunk out = (true, out.push v)

/-- The bytes are refused. -/
def Refuses (f : Field) (chunk : List UInt8) : Prop := ∀ out, f.attempt chunk out = (false, out)

variable {f : Field} {chunk : List UInt8} {v : Value}

theorem reads_of_decode? (hf : f.literal = none) (hspan : f.span = some chunk.length)
    (h : f.decode? chunk = some v) : f.Reads chunk v := by
  intro out
  rw [attempt, hspan, if_neg (by simp), hf, h]

theorem refuses_of_decode? (hf : f.literal = none) (hspan : f.span = some chunk.length)
    (h : f.decode? chunk = none) : f.Refuses chunk := by
  intro out
  rw [attempt, hspan, if_neg (by simp), hf, h]

/-- Bytes of the right width are refused if they stand for nothing. -/
theorem refuses_iff (hf : f.literal = none) (hspan : f.span = some chunk.length) :
    f.Refuses chunk ↔ f.decode? chunk = none := by
  refine ⟨fun h => ?_, refuses_of_decode? hf hspan⟩
  cases hd : f.decode? chunk with
  | none => rfl
  | some v =>
    have hread := reads_of_decode? hf hspan hd .empty
    rw [h .empty] at hread
    cases hread

/-- Bytes of the right width are read as what they stand for. -/
theorem reads_iff (hf : f.literal = none) (hspan : f.span = some chunk.length) :
    f.Reads chunk v ↔ f.decode? chunk = some v := by
  refine ⟨fun h => ?_, reads_of_decode? hf hspan⟩
  cases hd : f.decode? chunk with
  | none =>
    have hno := refuses_of_decode? hf hspan hd .empty
    rw [h .empty] at hno
    cases hno
  | some v' =>
    have hread := reads_of_decode? hf hspan hd .empty
    rw [h .empty] at hread
    have hvalues : [v] = [v'] := congrArg (fun r => r.2.values) hread
    rw [List.singleton_inj.mp hvalues]

end Field

namespace Segment

/-- A segment for an integer of one to eight bytes. -/
structure HoldsInteger (s : Segment) (width : Nat) : Prop where
  kind_eq : s.kind = .integer
  span_eq : s.declaredSpan = .ok (some width)
  width_le : 1 ≤ width ∧ width ≤ 8

/-- What is written for an integer, and what a free segment reads. -/
structure WritesInteger (s : Segment) (width : Nat) (n : Int64) (bytes : List UInt8) : Prop where
  isWord : s.order.IsWord width (residue width n) bytes
  refuses_iff : s.blank.Refuses bytes ↔ s.isSigned = false ∧ width = 8 ∧ n < 0
  reads : s.blank.Refuses bytes ∨
    ∃ m, s.blank.Reads bytes (.int m) ∧ IsReduced s.isSigned width n m
  reads_self_iff : s.blank.Reads bytes (.int n) ↔ InRange s.isSigned width n.toInt

/-- What a free segment reads, and what is written for it. -/
structure ReadsInteger (s : Segment) (width : Nat) (isLast : Bool) (chunk : List UInt8) :
    Prop where
  refuses_iff : s.blank.Refuses chunk ↔ s.isSigned = false ∧ width = 8 ∧ s.order.TopBit chunk
  reads : s.blank.Refuses chunk ∨ ∃ m, s.blank.Reads chunk (.int m)
  written : ∀ v, s.blank.Reads chunk v →
    { s with literal := some v }.field isLast = .ok { s.blank with literal := some chunk }

variable {s : Segment} {width : Nat}

namespace HoldsInteger

theorem field_free (h : s.HoldsInteger width) (isLast : Bool) :
    { s with literal := none }.field isLast = .ok s.blank := by
  obtain ⟨hkind, hspan, hwidth⟩ := h
  have hcheck : checkIntegerSpan (some width) = .ok () := if_pos hwidth
  have hsame : { s with literal := none }.declaredSpan = .ok (some width) := hspan
  rw [blank_eq hspan, field, hsame]
  show { s with literal := none }.freeField isLast (some width) = _
  rw [freeField, if_neg (by simp), if_pos hkind, hcheck]
  rfl

/-- A literal keeps the remainder of its integer. -/
theorem encode (h : s.HoldsInteger width) (n : Int64) :
    s.blank.encode (.int n) = .ok (s.order.encode width (residue width n)) := by
  obtain ⟨hkind, hspan, hwidth⟩ := h
  have hcheck : checkIntegerSpan (some width) = .ok () := if_pos hwidth
  rw [← twosComplement_mod_eq_residue hwidth.2, ByteOrder.encode_mod, blank_eq hspan, hkind]
  show (checkIntegerSpan (some width) >>= fun _ =>
    .ok (s.order.encode width (twosComplement n))) = _
  rw [hcheck]
  rfl

theorem field_literal (h : s.HoldsInteger width) (n : Int64) (isLast : Bool) :
    { s with literal := some (.int n) }.field isLast =
      .ok { s.blank with literal := some (s.order.encode width (residue width n)) } := by
  have hspan : { s with literal := some (.int n) }.declaredSpan = .ok (some width) := h.span_eq
  have hlen := s.order.length_encode width (residue width n)
  rw [field_of_encode rfl hspan (h.encode n) isLast, if_neg (by simp [hlen]), hlen,
    ← span_blank h.span_eq]
  rfl

theorem decode? (h : s.HoldsInteger width) {chunk : List UInt8} (hc : chunk.length = width) :
    s.blank.decode? chunk =
      (integerOfWord? s.isSigned width (s.order.decode chunk)).map .int := by
  obtain ⟨hkind, hspan, hwidth⟩ := h
  subst hc
  rw [blank_eq hspan, hkind]
  exact if_pos hwidth

theorem span_blank (h : s.HoldsInteger width) {chunk : List UInt8} (hc : chunk.length = width) :
    s.blank.span = some chunk.length := by
  rw [hc]
  exact Segment.span_blank h.span_eq

theorem refuses_iff (h : s.HoldsInteger width) {chunk : List UInt8} (hc : chunk.length = width) :
    s.blank.Refuses chunk ↔ s.isSigned = false ∧ 2 ^ 63 ≤ s.order.decode chunk := by
  rw [Field.refuses_iff rfl (h.span_blank hc), h.decode? hc, Option.map_eq_none_iff,
    integerOfWord?_eq_none_iff]

theorem reads_iff (h : s.HoldsInteger width) {chunk : List UInt8} (hc : chunk.length = width)
    {v : Value} : s.blank.Reads chunk v ↔
      ∃ m, integerOfWord? s.isSigned width (s.order.decode chunk) = some m ∧ .int m = v := by
  rw [Field.reads_iff rfl (h.span_blank hc), h.decode? hc, Option.map_eq_some_iff]

theorem refuses_or_reads (h : s.HoldsInteger width) {chunk : List UInt8}
    (hc : chunk.length = width) :
    s.blank.Refuses chunk ∨ ∃ m, s.blank.Reads chunk (.int m) := by
  cases hm : integerOfWord? s.isSigned width (s.order.decode chunk) with
  | none => exact .inl ((h.refuses_iff hc).mpr (integerOfWord?_eq_none_iff.mp hm))
  | some m => exact .inr ⟨m, (h.reads_iff hc).mpr ⟨m, hm, rfl⟩⟩

theorem writesInteger (h : s.HoldsInteger width) (n : Int64) :
    s.WritesInteger width n (s.order.encode width (residue width n)) := by
  have hlen := s.order.length_encode width (residue width n)
  have hword : s.order.decode (s.order.encode width (residue width n)) = residue width n := by
    rw [ByteOrder.decode_encode, Nat.mod_eq_of_lt (residue_lt width n)]
  have hrefuses := h.refuses_iff hlen
  have hreads : ∀ m, s.blank.Reads (s.order.encode width (residue width n)) (.int m) →
      IsReduced s.isSigned width n m := by
    intro m hm
    obtain ⟨m', hm', hsame⟩ := (h.reads_iff hlen).mp hm
    rw [hword, Value.int.inj hsame] at hm'
    exact integerOfWord?_isReduced h.width_le hm'
  rw [hword, le_residue_iff h.width_le.2] at hrefuses
  refine ⟨s.order.isWord_encode width _, hrefuses, ?_, ?_, ?_⟩
  · rcases h.refuses_or_reads hlen with hno | ⟨m, hm⟩
    · exact .inl hno
    · exact .inr ⟨m, hm, hreads m hm⟩
  · intro hn
    exact (hreads n hn).inRange
  · intro hn
    rcases h.refuses_or_reads hlen with hno | ⟨m, hm⟩
    · -- Nothing below zero is in range without a sign.
      obtain ⟨hsigned, _, hneg⟩ := hrefuses.mp hno
      have hlt : n.toInt < 0 := Int64.lt_iff_toInt_lt.mp hneg
      rw [hsigned] at hn
      exact absurd hn.1 (Int.not_le.mpr hlt)
    · have hsame := (hreads m hm).unique n.toInt hn rfl
      obtain rfl := Int64.toInt_inj.mp hsame
      exact hm

theorem readsInteger (h : s.HoldsInteger width) (isLast : Bool) {chunk : List UInt8}
    (hc : chunk.length = width) : s.ReadsInteger width isLast chunk := by
  refine ⟨?_, h.refuses_or_reads hc, ?_⟩
  · have hlt := s.order.decode_lt chunk
    rw [hc] at hlt
    rw [h.refuses_iff hc]
    constructor
    · rintro ⟨hsigned, hle⟩
      have height := width_eq_eight h.width_le.2 hlt hle
      exact ⟨hsigned, height, (ByteOrder.le_decode_iff (hc.trans height)).mp hle⟩
    · rintro ⟨hsigned, height, htop⟩
      exact ⟨hsigned, (ByteOrder.le_decode_iff (hc.trans height)).mpr htop⟩
  · intro v hv
    obtain ⟨m, hm, rfl⟩ := (h.reads_iff hc).mp hv
    subst hc
    rw [h.field_literal, ← twosComplement_mod_eq_residue h.width_le.2, ByteOrder.encode_mod,
      encode_twosComplement h.width_le.2 hm]

end HoldsInteger

/-- **Literal and free integers correspond**, in every width of one to eight bytes, with and without
a sign and in both byte orders.  A literal is laid out as the bytes of its remainder.  A free
segment of the same layout reads them as the integer in its range with this remainder; it refuses
them if there is no sign, all eight bytes are kept and the integer is below zero.  What it reads is
written as the bytes that it was read from, and it refuses eight bytes without a sign if their
most significant bit is set. -/
theorem integers_correspond (h : s.HoldsInteger width) (isLast : Bool) :
    { s with literal := none }.field isLast = .ok s.blank ∧
    (∀ n : Int64, ∃ bytes,
      { s with literal := some (.int n) }.field isLast =
        .ok { s.blank with literal := some bytes } ∧ s.WritesInteger width n bytes) ∧
    ∀ chunk : List UInt8, chunk.length = width → s.ReadsInteger width isLast chunk :=
  ⟨h.field_free isLast, fun n => ⟨_, h.field_literal n isLast, h.writesInteger n⟩,
    fun _ hc => h.readsInteger isLast hc⟩

/-- Three bytes with a sign, the least significant byte first; and eight without one. -/
theorem integers_correspond_wide :
    ∃ s t : Segment, s = ⟨none, .integer, some 24, none, [.signed, .little]⟩ ∧
      t = ⟨none, .integer, some 4, some 16, []⟩ ∧
      s.WritesInteger 3 (-2) [254, 255, 255] ∧ s.blank.Reads [254, 255, 255] (.int (-2)) ∧
      t.ReadsInteger 8 true [128, 0, 0, 0, 0, 0, 0, 0] ∧
      t.blank.Refuses [128, 0, 0, 0, 0, 0, 0, 0] := by
  have hs : HoldsInteger ⟨none, .integer, some 24, none, [.signed, .little]⟩ 3 :=
    ⟨rfl, rfl, by decide⟩
  have ht : HoldsInteger ⟨none, .integer, some 4, some 16, []⟩ 8 := ⟨rfl, rfl, by decide⟩
  obtain ⟨bytes, hfield, hwrites⟩ := (integers_correspond hs false).2.1 (-2)
  have hreads := (integers_correspond ht true).2.2 [128, 0, 0, 0, 0, 0, 0, 0] rfl
  have hbytes : bytes = [254, 255, 255] := by
    rw [hs.field_literal] at hfield
    exact (Option.some.inj (congrArg Field.literal (Except.ok.inj hfield))).symm
  subst hbytes
  exact ⟨_, _, rfl, rfl, hwrites, hwrites.reads_self_iff.mpr (by decide), hreads,
    hreads.refuses_iff.mpr ⟨rfl, rfl, 128, rfl, rfl⟩⟩

end Segment

end StructuralMatching
