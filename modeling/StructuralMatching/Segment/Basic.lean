/-
Segments: the typed, sized parts into which a byte sequence is cut.

* `SegmentType` — how the bytes of a segment are read;
* `Segment` — a literal, or a free segment whose bytes are read and bound, with size and unit;
* `Segment.bitWidth?` — unit times size, in bits, if the segment has a size;
* `Segment.declaredSpan` — the same in whole bytes;
* `SegmentError` — why a segment cannot be laid out.

Design notes: size and unit are 32-bit words, so their product fits a 64-bit word.
-/
import StructuralMatching.ByteOrder
import StructuralMatching.Value.Basic

namespace StructuralMatching

/-- How the bytes of a segment are read. -/
inductive SegmentType where
  | integer
  | float
  /-- The bytes themselves. -/
  | bitstring
  /-- Text whose characters are the bytes. -/
  | binary
  | utf8
  | utf16
  | utf32
deriving DecidableEq, Repr

namespace SegmentType

def all : List SegmentType := [integer, float, bitstring, binary, utf8, utf16, utf32]

def name : SegmentType → String
  | integer => "integer"
  | float => "float"
  | bitstring => "bitstring"
  | binary => "binary"
  | utf8 => "utf8"
  | utf16 => "utf16"
  | utf32 => "utf32"

/-- The bits of a unit, where a segment names none. -/
def defaultUnit : SegmentType → UInt32
  | integer | float | bitstring => 1
  | binary | utf8 => 8
  | utf16 => 16
  | utf32 => 32

/-- The size in units, where a segment names none; only numbers have one. -/
def defaultSize? : SegmentType → Option UInt32
  | integer => some 8
  | float => some 64
  | _ => none

end SegmentType

/-- Modifiers of a segment.  Integers are unsigned and numbers begin with their most significant
byte unless they are marked otherwise. -/
inductive SegmentAttribute where
  | signed
  | unsigned
  | big
  | little
deriving DecidableEq, Repr

namespace SegmentAttribute

def all : List SegmentAttribute := [signed, unsigned, big, little]

def name : SegmentAttribute → String
  | signed => "signed"
  | unsigned => "unsigned"
  | big => "big"
  | little => "little"

end SegmentAttribute

/-- A part of a byte sequence.  Without a literal it is free: its bytes are read and bound. -/
structure Segment where
  literal : Option Value
  kind : SegmentType
  size : Option UInt32
  unit : Option UInt32
  attributes : List SegmentAttribute

/-- Why a segment cannot be laid out. -/
inductive SegmentError where
  /-- A free segment of open width has another segment after it. -/
  | unsized (kind : SegmentType)
  /-- The width is not a whole number of bytes. -/
  | unaligned (bits : UInt64)
  /-- The type has no numbers of this width. -/
  | unsupportedWidth (kind : SegmentType) (bits : UInt64)
  /-- The literal is of the wrong kind, or its bytes are more or fewer than the width. -/
  | invalidLiteral (kind : SegmentType) (valueType : String)
deriving DecidableEq, Repr

/-- The text of an error of the segment at `index`. -/
def SegmentError.message (index : Nat) : SegmentError → String
  | unsized kind => s!"segment {index}: unsized {kind.name} segment must be the last segment"
  | unaligned bits => s!"segment {index}: width of {bits} bits is not a whole number of bytes"
  | unsupportedWidth kind bits => s!"segment {index}: {kind.name} cannot be {bits} bits wide"
  | invalidLiteral kind valueType =>
    s!"segment {index}: {valueType} literal cannot be encoded as {kind.name}"

namespace Segment

def isSigned (s : Segment) : Bool := s.attributes.contains .signed

def order (s : Segment) : ByteOrder :=
  if s.attributes.contains .little then .little else .big

/-- The width in bits, if the segment or its type gives a size. -/
def bitWidth? (s : Segment) : Option UInt64 :=
  (s.size <|> s.kind.defaultSize?).map fun size =>
    (s.unit.getD s.kind.defaultUnit).toUInt64 * size.toUInt64

/-- The width in bytes, if the segment or its type gives a size. -/
def declaredSpan (s : Segment) : Except SegmentError (Option Nat) :=
  match s.bitWidth? with
  | none => .ok none
  | some bits =>
    if bits % 8 = 0 then .ok (some (bits / 8).toNat) else .error (.unaligned bits)

end Segment

end StructuralMatching
