/-
The layout of a list of segments, and byte sequences cut along it.

* `layout` — the segments with their widths fixed, or the first error;
* `Field.attemptAll` — the bytes are cut from the left, one piece for every segment; the last
  segment takes all that is left, and every declared width has to be met exactly.

Design notes: a segment of open width is only possible at the end, so the cut is determined by the
layout and the number of bytes.
-/
import StructuralMatching.Bindings
import StructuralMatching.Segment.Codec

namespace StructuralMatching

namespace Segment

/-- A free segment laid out. -/
def freeField (s : Segment) (isLast : Bool) (span : Option Nat) : Except SegmentError Field := do
  if span.isNone && !isLast then throw (.unsized s.kind)
  if s.kind = .integer then checkIntegerSpan span
  return ⟨s.kind, span, none, s.isSigned, s.order⟩

/-- A literal segment laid out: its width is that of its bytes. -/
def literalField (s : Segment) (value : Value) (span : Option Nat) : Except SegmentError Field := do
  let field : Field := ⟨s.kind, span, none, s.isSigned, s.order⟩
  let content ← field.encode value
  if span.any (· != content.length) then throw (.invalidLiteral s.kind value.typeName)
  return { field with span := some content.length, literal := some content }

/-- A segment laid out. -/
def field (s : Segment) (isLast : Bool) : Except SegmentError Field := do
  let span ← s.declaredSpan
  match s.literal with
  | none => s.freeField isLast span
  | some value => s.literalField value span

end Segment

/-- The layout of segments of which the first has the number `index`; an error comes with the
number of its segment. -/
def layoutFrom (index : Nat) : List Segment → Except (Nat × SegmentError) (List Field)
  | [] => .ok []
  | s :: rest =>
    match s.field rest.isEmpty with
    | .error e => .error (index, e)
    | .ok field =>
      match layoutFrom (index + 1) rest with
      | .error e => .error e
      | .ok fields => .ok (field :: fields)

/-- The layout of segments. -/
def layout (segments : List Segment) : Except (Nat × SegmentError) (List Field) :=
  layoutFrom 0 segments

namespace Field

/-- Checks the bytes of one segment, and binds what they stand for if the segment is free. -/
def attempt (f : Field) (chunk : List UInt8) (out : Bindings) : Bool × Bindings :=
  if f.span.any (· != chunk.length) then (false, out)
  else
    match f.literal with
    | some expected => (expected == chunk, out)
    | none =>
      match f.decode? chunk with
      | some value => (true, out.push value)
      | none => (false, out)

/-- Cuts the bytes along the layout. -/
def attemptAll : List Field → List UInt8 → Bindings → Bool × Bindings
  | [], content, out => (content.isEmpty, out)
  | f :: rest, content, out =>
    let width := if rest.isEmpty then content.length else f.span.getD 0
    if content.length < width then (false, out)
    else
      match f.attempt (content.take width) out with
      | (true, out) => attemptAll rest (content.drop width) out
      | (false, out) => (false, out)

/-- How many values a match binds: one for every free segment. -/
def freeCount (fields : List Field) : Nat := fields.countP fun f => f.literal.isNone

end Field

end StructuralMatching
