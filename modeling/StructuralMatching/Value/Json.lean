/-
Values and JSON trees.

* `Value.toJson` — the tree of a value; what JSON cannot say becomes `null`;
* `Value.ofJson` — the value of a tree.
-/
import StructuralMatching.Json.Basic
import StructuralMatching.Value.Text

namespace StructuralMatching.Value

mutual

/-- The tree of a value.  Atoms become strings, bytes arrays of numbers, and instances the object
of their fields; no value at all and what is not finite become `null`. -/
def toJson (o : Occasion) : Value → Json
  | undefined => .null
  | null => .null
  | bool b => .bool b
  | int n => .int n
  | float x => if h : x.isFinite then .float x h else .null
  | string s => .string s
  | atom name => .string (atomText name)
  | bytes content => .array (content.map fun b => .int (Int64.ofNat b.toNat))
  | list items => .array (toJsonItems o items)
  | map entries => .object (toJsonEntries o entries)
  | object i => .object (toJsonEntries o (i.fields o))
termination_by structural v => v

def toJsonItems (o : Occasion) : List Value → List Json
  | [] => []
  | v :: vs => toJson o v :: toJsonItems o vs
termination_by structural vs => vs

def toJsonEntries (o : Occasion) : List (String × Value) → List (String × Json)
  | [] => []
  | (key, v) :: entries => (key, toJson o v) :: toJsonEntries o entries
termination_by structural entries => entries

end

mutual

/-- The value of a tree.  Of several entries with one key the last counts. -/
def ofJson : Json → Value
  | .null => null
  | .bool b => bool b
  | .int n => int n
  | .large n _ => float (Binary64.ofInt n.toNat)
  | .float x _ => float x
  | .string s => string s
  | .array items => list (ofJsonItems items)
  | .object entries => map (Fields.ofList (ofJsonEntries entries))
termination_by structural j => j

def ofJsonItems : List Json → List Value
  | [] => []
  | j :: js => ofJson j :: ofJsonItems js
termination_by structural js => js

def ofJsonEntries : List (String × Json) → List (String × Value)
  | [] => []
  | (key, j) :: entries => (key, ofJson j) :: ofJsonEntries entries
termination_by structural entries => entries

end

end StructuralMatching.Value
