/-
What the bytes of a segment stand for.

* `Field` — a segment with its width fixed;
* `Field.encode` — the bytes of a literal;
* `Field.decode?` — the value that the bytes of a free segment stand for, if there is one.

Design notes: for most types decoding undoes encoding.  The exceptions are `binary` and `utf8`,
which write text in UTF-8 and read every byte as a character of its own.
-/
import StructuralMatching.Segment.Basic
import StructuralMatching.Text.Encoding

namespace StructuralMatching

/-- A segment laid out.  Without a span it takes all that is left; with a literal its bytes have
to be these. -/
structure Field where
  kind : SegmentType
  span : Option Nat
  literal : Option (List UInt8)
  signed : Bool
  order : ByteOrder

/-- Integers take one to eight bytes. -/
def checkIntegerSpan : Option Nat → Except SegmentError Unit
  | some n =>
    if 1 ≤ n ∧ n ≤ 8 then .ok () else .error (.unsupportedWidth .integer (8 * UInt64.ofNat n))
  | none => .error (.unsupportedWidth .integer 0)

/-- The text of a literal: a string, or the character of a code point. -/
def literalText? : Value → Option String
  | .string s => some s
  | .int n =>
    if 0 ≤ n.toInt then (Text.scalar? n.toInt.toNat).map fun c => String.ofList [c] else none
  | _ => none

/-- The two's complement of an integer in eight bytes, as a natural number. -/
def twosComplement (n : Int64) : Nat := n.toUInt64.toNat

/-- The integer that a word of `width` bytes stands for.  Unsigned words from `2 ^ 63` on stand
for none. -/
def integerOfWord? (signed : Bool) (width word : Nat) : Option Int64 :=
  if signed then
    some (Int64.ofInt (if 2 * word < 256 ^ width then word else (word : Int) - 256 ^ width))
  else if word < 2 ^ 63 then some (Int64.ofNat word)
  else none

namespace Field

/-- The bytes of a literal. -/
def encode (f : Field) (value : Value) : Except SegmentError (List UInt8) :=
  let invalid : SegmentError := .invalidLiteral f.kind value.typeName
  match f.kind with
  | .integer =>
    match value with
    | .int n => do
      let width := f.span.getD 1
      checkIntegerSpan (some width)
      return f.order.encode width (twosComplement n)
    | _ => .error invalid
  | .float =>
    let number? := match value with
      | .float x => some x
      | .int n => some (Binary64.ofInt n.toInt)
      | _ => none
    match number?, f.span.getD 8 with
    | none, _ => .error invalid
    | some x, 4 => .ok (f.order.encode 4 x.narrow)
    | some x, 8 => .ok (f.order.encode 8 x.word)
    | some _, other => .error (.unsupportedWidth .float (8 * UInt64.ofNat other))
  | .binary | .bitstring =>
    match value with
    | .bytes content => .ok content
    | .string s => .ok (Text.utf8 s)
    | _ => .error invalid
  | .utf8 =>
    match literalText? value with
    | some s => .ok (Text.utf8 s)
    | none => .error invalid
  | .utf16 =>
    match literalText? value with
    | some s => .ok ((Text.utf16 s).flatMap (f.order.encode 2))
    | none => .error invalid
  | .utf32 =>
    match literalText? value with
    | some s => .ok ((Text.utf32 s).flatMap (f.order.encode 4))
    | none => .error invalid

/-- The value that the bytes of a free segment stand for. -/
def decode? (f : Field) (chunk : List UInt8) : Option Value :=
  match f.kind with
  | .integer =>
    if 1 ≤ chunk.length ∧ chunk.length ≤ 8 then
      (integerOfWord? f.signed chunk.length (f.order.decode chunk)).map .int
    else none
  | .float =>
    match chunk.length with
    | 4 => some (.float (Binary64.widen (f.order.decode chunk)))
    | 8 => some (.float ⟨UInt64.ofNat (f.order.decode chunk)⟩)
    | _ => none
  | .bitstring => some (.bytes chunk)
  | .binary | .utf8 => some (.string (Text.latin1 chunk))
  | .utf16 => do
    let units ← chunksOf? 2 chunk
    let s ← Text.ofUtf16? (units.map f.order.decode)
    return .string s
  | .utf32 => do
    let units ← chunksOf? 4 chunk
    let s ← Text.ofUtf32? (units.map f.order.decode)
    return .string s

end Field

end StructuralMatching
