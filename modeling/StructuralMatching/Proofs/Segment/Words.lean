/-
Computing on machine words.

An operation on words may leave its range, and then there is nothing to go on with.  What is said
here is that the bytes of integers are found on words as they are with natural numbers: an integer
is written by the last of its eight bytes, and read by shifts.

* `Word` — operations on words, which have no result if they leave the range;
* `Halt` — why a computation on words has no result;
* `Word.toNat_gather` — bytes that are put one after the other into a word make up their number;
* `Word.toInt_shiftRight_shiftLeft` — a shift to the upper end of a word and back makes the sign;
* `integerBytesOnWords_eq`, `integerOnWords?_eq` — integers written and read.

Design notes: a word is a natural number here, and an operation is told how many bits its result may
have.  Only the word that an integer is gathered in is a machine word, because bits are shifted out
of it.
-/
import Mathlib.Tactic.Ring
import StructuralMatching.Proofs.Segment.Cursor
import StructuralMatching.Proofs.Segment.Integers

namespace StructuralMatching

/-! ### Operations on words -/

namespace Word

/-- A number as a word of so many bits, if it is one. -/
def ofNat? (bits n : Nat) : Option Nat := if n < 2 ^ bits then some n else none

/-- The product of two words, if it is one. -/
def mul? (bits a b : Nat) : Option Nat := ofNat? bits (a * b)

/-- The difference of two words, if it is not below zero. -/
def sub? (a b : Nat) : Option Nat := if b ≤ a then some (a - b) else none

/-- A word of 64 bits shifted to the left, by less than its width. -/
def shiftLeft? (a : UInt64) (count : Nat) : Option UInt64 :=
  if count < 64 then some (a <<< UInt64.ofNat count) else none

/-- An integer of 64 bits shifted to the right, by less than its width.  It keeps its sign. -/
def shiftRight? (a : Int64) (count : Nat) : Option Int64 :=
  if count < 64 then some (a >>> Int64.ofNat count) else none

/-- The bits of a word move up by one byte, and the next byte is put in. -/
def push (word : UInt64) (b : UInt8) : UInt64 := word <<< 8 ||| b.toUInt64

/-- The word that bytes make up, most significant byte first. -/
def gather (bytes : List UInt8) : UInt64 := bytes.foldl push 0

theorem ofNat?_of_lt {bits n : Nat} (h : n < 2 ^ bits) : ofNat? bits n = some n := if_pos h

theorem mul?_of_lt {bits a b : Nat} (h : a * b < 2 ^ bits) : mul? bits a b = some (a * b) :=
  if_pos h

theorem sub?_of_le {a b : Nat} (h : b ≤ a) : sub? a b = some (a - b) := if_pos h

theorem shiftLeft?_of_lt {a : UInt64} {count : Nat} (h : count < 64) :
    shiftLeft? a count = some (a <<< UInt64.ofNat count) := if_pos h

theorem shiftRight?_of_lt {a : Int64} {count : Nat} (h : count < 64) :
    shiftRight? a count = some (a >>> Int64.ofNat count) := if_pos h

/-- A product of two words of 32 bits is one of 64 bits. -/
theorem mul_lt (a b : UInt32) : a.toNat * b.toNat < 2 ^ 64 := by
  calc a.toNat * b.toNat < 2 ^ 32 * 2 ^ 32 := Nat.mul_lt_mul'' a.toNat_lt b.toNat_lt
    _ = 2 ^ 64 := rfl

theorem toNat_mul (a b : UInt32) : (a.toUInt64 * b.toUInt64).toNat = a.toNat * b.toNat := by
  rw [UInt64.toNat_mul, UInt32.toNat_toUInt64, UInt32.toNat_toUInt64, Nat.mod_eq_of_lt (mul_lt a b)]

/-- A number of bytes that is counted in bits again. -/
theorem toNat_eight_mul {n : Nat} (h : n < 2 ^ 61) : (8 * UInt64.ofNat n).toNat = 8 * n := by
  have hn : (UInt64.ofNat n).toNat = n := UInt64.toNat_ofNat_of_lt' (by rw [UInt64.size]; omega)
  rw [UInt64.toNat_mul, hn]
  show 8 * n % 2 ^ 64 = 8 * n
  omega

/-- No bit gets lost if there is room for one more byte. -/
theorem toNat_push {word : UInt64} (h : (word.toNat + 1) * 256 ≤ 2 ^ 64) (b : UInt8) :
    (push word b).toNat = word.toNat * 256 + b.toNat := by
  have hb := b.toNat_lt
  have hshift : (word <<< 8).toNat = word.toNat <<< 8 := by
    rw [UInt64.toNat_shiftLeft]
    show word.toNat <<< 8 % 2 ^ 64 = word.toNat <<< 8
    rw [Nat.shiftLeft_eq]
    omega
  rw [push, UInt64.toNat_or, UInt8.toNat_toUInt64, hshift, ← Nat.shiftLeft_add_eq_or_of_lt hb,
    Nat.shiftLeft_eq]

theorem toNat_foldl_push {bytes : List UInt8} {word : UInt64}
    (h : (word.toNat + 1) * 256 ^ bytes.length ≤ 2 ^ 64) : (bytes.foldl push word).toNat =
      word.toNat * 256 ^ bytes.length + ByteOrder.ofLeastFirst bytes.reverse := by
  induction bytes generalizing word with
  | nil => simp [ByteOrder.ofLeastFirst]
  | cons b rest ih =>
    have hb := b.toNat_lt
    have hpos := Nat.pow_pos (n := rest.length) (show 0 < 256 by decide)
    rw [List.length_cons, Nat.pow_succ, Nat.mul_comm (256 ^ _), ← Nat.mul_assoc] at h
    -- There is room for all bytes to come, and so there is for this one.
    have hpush := toNat_push (Nat.le_trans (Nat.le_mul_of_pos_right _ hpos) h) b
    have hroom : (word.toNat * 256 + b.toNat + 1) * 256 ^ rest.length ≤ 2 ^ 64 :=
      Nat.le_trans (Nat.mul_le_mul_right _ (by omega)) h
    rw [List.foldl_cons, ih (by rwa [hpush]), hpush, List.reverse_cons,
      ByteOrder.ofLeastFirst_concat, List.length_reverse, List.length_cons, Nat.pow_succ]
    ring

/-- The word of at most eight bytes is the number that they stand for. -/
theorem toNat_gather {bytes : List UInt8} (h : bytes.length ≤ 8) :
    (gather bytes).toNat = ByteOrder.ofLeastFirst bytes.reverse := by
  have hroom : 256 ^ bytes.length ≤ 2 ^ 64 := Nat.pow_le_pow_right (n := 256) (by decide) h
  rw [gather, toNat_foldl_push (by simpa using hroom)]
  simp

theorem toNat_shiftCount {count : Nat} (h : count < 64) :
    ((Int64.ofNat count).toBitVec.smod 64).toNat = count := by
  revert count
  decide

/-- Shifted up to the end of the word and down again, a number of `width` bytes becomes an integer
with a sign. -/
theorem toInt_shiftRight_shiftLeft {word : UInt64} {width : Nat} (hw : 1 ≤ width ∧ width ≤ 8)
    (h : word.toNat < 256 ^ width) :
    ((word <<< UInt64.ofNat (64 - 8 * width)).toInt64 >>> Int64.ofNat (64 - 8 * width)).toInt =
      if 2 * word.toNat < 256 ^ width then (word.toNat : Int) else word.toNat - 256 ^ width := by
  have hpow : 256 ^ width * 2 ^ (64 - 8 * width) = 2 ^ 64 := by
    rw [show 256 = 2 ^ 8 from rfl, ← Nat.pow_mul, ← Nat.pow_add]
    congr 1
    omega
  have hcount : 64 - 8 * width < 64 := by omega
  generalize 64 - 8 * width = count at hpow hcount ⊢
  have hpos := Nat.two_pow_pos count
  have hlt : word.toNat * 2 ^ count < 2 ^ 64 := hpow ▸ Nat.mul_lt_mul_of_pos_right h hpos
  have hshift : (word <<< UInt64.ofNat count).toInt64.toBitVec.toNat = word.toNat * 2 ^ count := by
    show (word <<< UInt64.ofNat count).toNat = _
    rw [UInt64.toNat_shiftLeft, UInt64.toNat_ofNat_of_lt' (by rw [UInt64.size]; omega),
      Nat.mod_eq_of_lt hcount, Nat.shiftLeft_eq, Nat.mod_eq_of_lt hlt]
  rw [Int64.toInt, Int64.toBitVec_shiftRight, BitVec.sshiftRight_eq', toNat_shiftCount hcount,
    BitVec.toInt_sshiftRight, BitVec.toInt_eq_toNat_cond, hshift, Int.shiftRight_eq_div_pow]
  have hhalf : 2 * (word.toNat * 2 ^ count) < 2 ^ 64 ↔ 2 * word.toNat < 256 ^ width := by
    rw [← hpow, ← Nat.mul_assoc]
    exact Nat.mul_lt_mul_right hpos
  have hne : ((2 ^ count : Nat) : Int) ≠ 0 := by omega
  rw [← hpow] at hhalf ⊢
  simp only [hhalf]
  split
  · rw [Int.natCast_mul, Int.mul_ediv_cancel _ hne]
  · rw [Int.natCast_mul, Int.natCast_mul, ← Int.sub_mul, Int.mul_ediv_cancel _ hne,
      Int.natCast_pow]
    rfl

end Word

/-! ### Computations that may halt -/

/-- Why a computation on words has no result. -/
inductive Halt (ε : Type) where
  /-- An operation has left the range of its words. -/
  | overflow
  | refused (cause : ε)

/-- Goes on with the result of an operation, if there is one. -/
def Halt.unless {ε α : Type} : Option α → Except (Halt ε) α
  | some a => .ok a
  | none => .error .overflow

theorem Halt.unless_bind {ε α β : Type} (a : α) (f : α → Except (Halt ε) β) :
    (Halt.unless (some a) >>= f) = f a := rfl

/-- Refuses a number of bytes, and reports it in bits. -/
def unsupportedOnWords {α : Type} (kind : SegmentType) (bytes : Nat) :
    Except (Halt SegmentError) α := do
  let bits ← Halt.unless (Word.mul? 64 bytes 8)
  throw (.refused (.unsupportedWidth kind (UInt64.ofNat bits)))

/-- Integers take one to eight bytes. -/
def checkIntegerSpanOnWords : Option Nat → Except (Halt SegmentError) Unit
  | some n => if 1 ≤ n ∧ n ≤ 8 then return else unsupportedOnWords .integer n
  | none => throw (.refused (.unsupportedWidth .integer 0))

theorem unsupportedOnWords_eq {α : Type} {n : Nat} (h : n < 2 ^ 61) (kind : SegmentType) :
    (unsupportedOnWords kind n : Except (Halt SegmentError) α) =
      .error (.refused (.unsupportedWidth kind (8 * UInt64.ofNat n))) := by
  have hbits : 8 * UInt64.ofNat n = UInt64.ofNat (n * 8) := by
    rw [← UInt64.toNat_inj, Word.toNat_eight_mul h, Nat.mul_comm]
    exact (UInt64.toNat_ofNat_of_lt' (by rw [UInt64.size]; omega)).symm
  rw [unsupportedOnWords, Word.mul?_of_lt (by omega), hbits]
  rfl

theorem checkIntegerSpanOnWords_eq {span : Option Nat} (h : ∀ n, span = some n → n < 2 ^ 61) :
    checkIntegerSpanOnWords span = (checkIntegerSpan span).mapError .refused := by
  cases span with
  | none => rfl
  | some n =>
    rw [checkIntegerSpanOnWords, checkIntegerSpan]
    split
    · rfl
    · exact unsupportedOnWords_eq (h n rfl) _

/-! ### Integers written and read -/

/-- The last bytes of an integer of eight bytes. -/
def integerBytesOnWords (order : ByteOrder) (width : Nat) (n : Int64) :
    Except (Halt SegmentError) (List UInt8) := do
  checkIntegerSpanOnWords (some width)
  let start ← Halt.unless (Word.sub? 8 width)
  let bytes ← Halt.unless (Field.slice? (ByteOrder.big.encode 8 (twosComplement n)) start 8)
  return if order = .little then bytes.reverse else bytes

/-- The integer of some bytes.  With a sign it is shifted to the upper end of a word and back. -/
def integerOnWords? (signed : Bool) (order : ByteOrder) (chunk : List UInt8) :
    Except (Halt SegmentError) (Option Int64) :=
  if chunk.length = 0 ∨ 8 < chunk.length then return none
  else do
    let word := Word.gather (if order = .little then chunk.reverse else chunk)
    if signed then
      -- The number of bytes is cut to 32 bits before it is counted in bits.
      let bits ← Halt.unless (Word.mul? 32 8 (chunk.length % 2 ^ 32))
      let count ← Halt.unless (Word.sub? 64 bits)
      let high ← Halt.unless (Word.shiftLeft? word count)
      let n ← Halt.unless (Word.shiftRight? high.toInt64 count)
      return some n
    else return if word.toNat < 2 ^ 63 then some word.toInt64 else none

theorem ByteOrder.take_leastFirst {width all : Nat} (h : width ≤ all) (n : Nat) :
    (leastFirst all n).take width = leastFirst width n := by
  induction width generalizing all n with
  | zero => rfl
  | succ width ih =>
    obtain ⟨all, rfl⟩ : ∃ k, all = k + 1 := ⟨all - 1, by omega⟩
    rw [leastFirst, leastFirst, List.take_succ_cons, ih (by omega)]

/-- The last bytes of a number are those that it is written with in a smaller width. -/
theorem Field.slice?_encode {width all : Nat} (h : width ≤ all) (n : Nat) :
    slice? (ByteOrder.big.encode all n) (all - width) all =
      some (ByteOrder.big.encode width n) := by
  have hdrop : (ByteOrder.big.encode all n).drop (all - width) = ByteOrder.big.encode width n := by
    rw [ByteOrder.encode, List.drop_reverse, ByteOrder.length_leastFirst, Nat.sub_sub_self h,
      ByteOrder.take_leastFirst h]
    rfl
  rw [slice?_eq_some_iff, ByteOrder.length_encode, hdrop, Nat.sub_sub_self h]
  refine ⟨Nat.sub_le _ _, Nat.le_refl _, ?_⟩
  rw [List.take_of_length_le (by rw [ByteOrder.length_encode])]

theorem integerBytesOnWords_eq {width : Nat} (h : width < 2 ^ 61) (order : ByteOrder) (n : Int64) :
    integerBytesOnWords order width n = (do
      checkIntegerSpan (some width)
      return order.encode width (twosComplement n)).mapError .refused := by
  have hcheck : checkIntegerSpanOnWords (some width) =
      (checkIntegerSpan (some width)).mapError .refused :=
    checkIntegerSpanOnWords_eq (by simpa using h)
  rw [integerBytesOnWords, hcheck]
  cases hwidth : checkIntegerSpan (some width) with
  | error e => rfl
  | ok =>
    obtain ⟨_, hsame, _, hle⟩ := Segment.checkIntegerSpan_eq_ok_iff.mp hwidth
    obtain rfl := Option.some.inj hsame
    show (Halt.unless (Word.sub? 8 width) >>= _) = _
    rw [Word.sub?_of_le hle, Halt.unless_bind, Field.slice?_encode hle, Halt.unless_bind]
    cases order with
    | big => rfl
    | little => exact congrArg Except.ok (List.reverse_reverse _)

theorem toNat_gather_order {chunk : List UInt8} (h : chunk.length ≤ 8) (order : ByteOrder) :
    (Word.gather (if order = .little then chunk.reverse else chunk)).toNat =
      order.decode chunk := by
  cases order with
  | big => exact Word.toNat_gather h
  | little =>
    have hlen : chunk.reverse.length ≤ 8 := by rwa [List.length_reverse]
    refine (Word.toNat_gather hlen).trans ?_
    rw [List.reverse_reverse]
    rfl

/-- **The shifts read the integer** that the bytes stand for. -/
theorem integerOnWords?_eq (signed : Bool) (order : ByteOrder) (chunk : List UInt8) :
    integerOnWords? signed order chunk = .ok
      (if 1 ≤ chunk.length ∧ chunk.length ≤ 8 then
        integerOfWord? signed chunk.length (order.decode chunk) else none) := by
  rw [integerOnWords?]
  by_cases hlen : 1 ≤ chunk.length ∧ chunk.length ≤ 8
  · have hword := toNat_gather_order hlen.2 order
    have hlt := order.decode_lt chunk
    rw [if_pos hlen, if_neg (by omega)]
    generalize Word.gather (if order = .little then chunk.reverse else chunk) = word at hword ⊢
    rw [← hword] at hlt ⊢
    cases signed with
    | true =>
      have hmod : chunk.length % 2 ^ 32 = chunk.length := Nat.mod_eq_of_lt (by omega)
      have hcount : 64 - 8 * chunk.length < 64 := by omega
      rw [if_pos rfl, hmod, Word.mul?_of_lt (by omega), Halt.unless_bind,
        Word.sub?_of_le (by omega), Halt.unless_bind, Word.shiftLeft?_of_lt hcount,
        Halt.unless_bind, Word.shiftRight?_of_lt hcount, Halt.unless_bind]
      refine congrArg (Except.ok ∘ some) ?_
      rw [← Word.toInt_shiftRight_shiftLeft hlen hlt, Int64.ofInt_toInt]
    | false =>
      have hsame : Int64.ofNat word.toNat = word.toInt64 :=
        congrArg UInt64.toInt64 UInt64.ofNat_toNat
      rw [if_neg Bool.false_ne_true, integerOfWord?, if_neg Bool.false_ne_true, hsame]
      rfl
  · rw [if_neg hlen, if_pos (by omega)]
    rfl

end StructuralMatching
