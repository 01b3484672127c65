/-
The text of values, as it appears in error messages.

* `Value.display` — the text of a value;
* `Value.displayAll` — the texts of several values, with commas between them.

Design notes: the readings of instances that one text needs happen on one occasion.
-/
import StructuralMatching.Binary64.Text
import StructuralMatching.Value.Basic

namespace StructuralMatching

/-- Numbers in text are written out in full, without a power of ten, whatever their size. -/
def displayLayout : FloatLayout where
  tie := .upper
  positional _ := true
  wholeSuffix := ""
  plusSign := ""
  nan := "NaN"
  infinity := "inf"

/-- The text of an atom: its name after a colon. -/
def atomText (name : String) : String := ":" ++ name

namespace Value

mutual

/-- The text of a value.  Lists show their items alone. -/
def display (o : Occasion) : Value → String
  | undefined => "undefined"
  | null => "null"
  | bool b => if b then "true" else "false"
  | int n => toString n.toInt
  | float x => x.render displayLayout
  | string s => s
  | atom name => atomText name
  | bytes content => "<<" ++ ", ".intercalate (content.map fun b => toString b.toNat) ++ ">>"
  | list items => ",".intercalate (displayItems o items)
  | map entries => "\x7b" ++ ", ".intercalate (displayEntries o entries) ++ "\x7d"
  | object i =>
    i.className ++ "\x7b" ++ ", ".intercalate (displayEntries o (i.fields o)) ++ "\x7d"
termination_by structural v => v

/-- The texts of the items of a list. -/
def displayItems (o : Occasion) : List Value → List String
  | [] => []
  | v :: vs => display o v :: displayItems o vs
termination_by structural vs => vs

/-- The texts of the entries of a map. -/
def displayEntries (o : Occasion) : List (String × Value) → List String
  | [] => []
  | (k, v) :: es => (k ++ ": " ++ display o v) :: displayEntries o es
termination_by structural es => es

end

/-- The texts of several values. -/
def displayAll (o : Occasion) (vs : List Value) : String :=
  ",".intercalate (vs.map (display o))

end Value

end StructuralMatching
