/-
The explicit text of values, which shows the kind of every part.

* `Value.explicit` — the explicit text of a value;
* `Value.explicitList` — the explicit text of several values;
* `Value.explicitBindings` — the explicit text of what a match binds, if there is one.
-/
import StructuralMatching.Binary64.Text
import StructuralMatching.Text.Quoted
import StructuralMatching.Value.Basic

namespace StructuralMatching

/-- Numbers in explicit text: a whole number keeps a decimal place, and a power of ten is written
from `10 ^ 16` upwards and below `10 ^ (-4)`. -/
def explicitLayout : FloatLayout where
  tie := .upper
  positional k := -3 ≤ k && k ≤ 16
  wholeSuffix := ".0"
  plusSign := ""
  nan := "NaN"
  infinity := "inf"

namespace Value

/-- Items in brackets. -/
def bracketed (items : List String) : String := "[" ++ ", ".intercalate items ++ "]"

/-- Text under the name of a kind. -/
def labelled (kind content : String) : String := kind ++ "(" ++ content ++ ")"

mutual

/-- The explicit text of a value.  An instance shows no more than the name of its class. -/
def explicit : Value → String
  | undefined => "Undefined"
  | null => "Null"
  | bool b => labelled "Bool" (if b then "true" else "false")
  | int n => labelled "Int" (toString n.toInt)
  | float x => labelled "Float" (x.render explicitLayout)
  | string s => labelled "String" (Text.quote s)
  | atom name => labelled "Atom" (labelled "Atom" (Text.quote name))
  | bytes content => labelled "Bytes" (bracketed (content.map fun b => toString b.toNat))
  | list items => labelled "List" (bracketed (explicitItems items))
  | map entries =>
    labelled "Map" ("\x7b" ++ ", ".intercalate (explicitEntries entries) ++ "\x7d")
  | object i => labelled "Object" i.className
termination_by structural v => v

def explicitItems : List Value → List String
  | [] => []
  | v :: vs => explicit v :: explicitItems vs
termination_by structural vs => vs

def explicitEntries : List (String × Value) → List String
  | [] => []
  | (key, v) :: entries => (Text.quote key ++ ": " ++ explicit v) :: explicitEntries entries
termination_by structural entries => entries

end

/-- The explicit text of several values. -/
def explicitList (vs : List Value) : String := bracketed (explicitItems vs)

/-- The explicit text of what a match binds, if there is one. -/
def explicitBindings : Option (List Value) → String
  | none => "None"
  | some vs => labelled "Some" (explicitList vs)

end Value

end StructuralMatching
