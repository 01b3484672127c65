/-
Segments by their descriptions.

* `Segment.ofDescription?` — the segment that a tree describes, if it describes one.
-/
import StructuralMatching.Config.Description
import StructuralMatching.Segment.Basic
import StructuralMatching.Value.Json

namespace StructuralMatching

/-- A value as data. -/
def Value.ofDescription? (d : Description) : Option Value := d.toJson?.map Value.ofJson

namespace Segment

/-- The declared fields of a segment. -/
def fieldNames : List String := ["value", "type", "size", "unit", "attributes"]

/-- A word of 32 bits. -/
def wordOfDescription? (d : Description) : Option UInt32 :=
  match d.asNatural? with
  | some n => if n < 2 ^ 32 then some (UInt32.ofNat n) else none
  | none => none

def typeOfDescription? (d : Description) : Option SegmentType :=
  (d.asChoice? (SegmentType.all.map SegmentType.name)).bind fun i => SegmentType.all[i]?

def attributeOfDescription? (d : Description) : Option SegmentAttribute :=
  (d.asChoice? (SegmentAttribute.all.map SegmentAttribute.name)).bind fun i =>
    SegmentAttribute.all[i]?

def attributesOfDescription? (d : Description) : Option (List SegmentAttribute) :=
  d.asItems?.bind fun items => items.mapM attributeOfDescription?

/-- The segment that a tree describes. -/
def ofDescription? (d : Description) : Option Segment := do
  match ← d.asRecord? fieldNames with
  | [value, kind, size, unit, attributes] =>
    let literal ← Config.optional? Description.isNull Value.ofDescription? value
    let kind ← Config.required? typeOfDescription? kind
    let size ← Config.optional? Description.isNull wordOfDescription? size
    let unit ← Config.optional? Description.isNull wordOfDescription? unit
    let attributes ← Config.withDefault? [] attributesOfDescription? attributes
    return ⟨literal, kind, size, unit, attributes⟩
  | _ => none

end Segment

end StructuralMatching
