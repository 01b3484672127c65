/-
Natural numbers as bytes.

* `ByteOrder` — which end of a number comes first;
* `ByteOrder.encode` — the `width` bytes of a number, counted modulo `256 ^ width`;
* `ByteOrder.decode` — the number that a byte sequence stands for;
* `ByteOrder.decode_encode`, `ByteOrder.encode_decode` — each undoes the other;
* `chunksOf` — a sequence cut into pieces of one length.
-/
import StructuralMatching.Powers

namespace StructuralMatching

/-- The order of the bytes of a number. -/
inductive ByteOrder where
  | big
  | little
deriving DecidableEq, Repr

namespace ByteOrder

/-- The bytes of a number, least significant byte first. -/
def leastFirst : Nat → Nat → List UInt8
  | 0, _ => []
  | width + 1, n => UInt8.ofNat n :: leastFirst width (n / 256)

/-- The number that bytes stand for, least significant byte first. -/
def ofLeastFirst : List UInt8 → Nat
  | [] => 0
  | b :: bs => b.toNat + 256 * ofLeastFirst bs

/-- The bytes of a number. -/
def encode (order : ByteOrder) (width n : Nat) : List UInt8 :=
  match order with
  | .little => leastFirst width n
  | .big => (leastFirst width n).reverse

/-- The number that bytes stand for. -/
def decode (order : ByteOrder) (bytes : List UInt8) : Nat :=
  match order with
  | .little => ofLeastFirst bytes
  | .big => ofLeastFirst bytes.reverse

@[simp] theorem length_leastFirst (width n : Nat) : (leastFirst width n).length = width := by
  induction width generalizing n with
  | zero => rfl
  | succ width ih => simp [leastFirst, ih]

@[simp] theorem length_encode (order : ByteOrder) (width n : Nat) :
    (order.encode width n).length = width := by
  cases order <;> simp [encode]

theorem ofLeastFirst_lt (bytes : List UInt8) : ofLeastFirst bytes < 256 ^ bytes.length := by
  induction bytes with
  | nil => simp [ofLeastFirst]
  | cons b bs ih =>
    have hb := b.toNat_lt
    simp only [ofLeastFirst, List.length_cons, Nat.pow_succ]
    omega

theorem ofLeastFirst_leastFirst (width n : Nat) :
    ofLeastFirst (leastFirst width n) = n % 256 ^ width := by
  induction width generalizing n with
  | zero => simp [leastFirst, ofLeastFirst, Nat.mod_one]
  | succ width ih =>
    have hb : (UInt8.ofNat n).toNat = n % 256 := UInt8.toNat_ofNat'
    rw [leastFirst, ofLeastFirst, ih, hb, Nat.pow_succ, Nat.mul_comm (256 ^ width), Nat.mod_mul]

theorem leastFirst_ofLeastFirst (bytes : List UInt8) :
    leastFirst bytes.length (ofLeastFirst bytes) = bytes := by
  induction bytes with
  | nil => rfl
  | cons b bs ih =>
    have hb := b.toNat_lt
    have hdiv : (b.toNat + 256 * ofLeastFirst bs) / 256 = ofLeastFirst bs := by omega
    have hmod : UInt8.ofNat (b.toNat + 256 * ofLeastFirst bs) = b := by
      apply UInt8.toNat_inj.mp
      rw [UInt8.toNat_ofNat']
      omega
    simp only [List.length_cons, leastFirst, ofLeastFirst, hdiv, ih, hmod]

/-- Decoding undoes encoding, up to the width. -/
theorem decode_encode (order : ByteOrder) (width n : Nat) :
    order.decode (order.encode width n) = n % 256 ^ width := by
  cases order <;> simp [encode, decode, ofLeastFirst_leastFirst]

/-- Encoding undoes decoding. -/
theorem encode_decode (order : ByteOrder) (bytes : List UInt8) :
    order.encode bytes.length (order.decode bytes) = bytes := by
  cases order with
  | little => exact leastFirst_ofLeastFirst bytes
  | big =>
    have h := leastFirst_ofLeastFirst bytes.reverse
    rw [List.length_reverse] at h
    simp [encode, decode, h]

theorem decode_lt (order : ByteOrder) (bytes : List UInt8) :
    order.decode bytes < 256 ^ bytes.length := by
  cases order with
  | little => exact ofLeastFirst_lt bytes
  | big =>
    have h := ofLeastFirst_lt bytes.reverse
    rwa [List.length_reverse] at h

end ByteOrder

/-- The sequence cut into pieces of `size` elements, or nothing if that leaves a rest. -/
def chunksOf? {α : Type} (size : Nat) (items : List α) : Option (List (List α)) :=
  if items = [] then some []
  else if _h : 0 < size ∧ size ≤ items.length then
    (chunksOf? size (items.drop size)).map (items.take size :: ·)
  else none
termination_by items.length
decreasing_by
  simp only [List.length_drop]
  omega

end StructuralMatching
