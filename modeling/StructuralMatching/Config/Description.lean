/-
Trees in which patterns are described.

* `Description` — a tree whose keys may be anything, and whose numbers need not be finite;
* `Json.describe` — a JSON tree as a description;
* `Description.toJson?` — the data that a description holds;
* `Description.asRecord?` — the declared fields of a description.

Design notes: the keys of JSON are strings, but those of other formats are not, and a field may also
be given by its number.  A natural number and an integer with a minus sign are told apart, because
only the former is the number of a field or of a choice.  What is infinite or not a number is still
there, though as data it is nothing.
-/
import StructuralMatching.Config.Record

namespace StructuralMatching

/-- A tree in which something is described. -/
inductive Description where
  | null
  | bool (b : Bool)
  | natural (n : UInt64)
  /-- An integer with a minus sign. -/
  | negative (n : Int64)
  | float (x : Binary64)
  | text (s : String)
  | sequence (items : List Description)
  | mapping (entries : List (Description × Description))

mutual

/-- A JSON tree as a description. -/
def Json.describe : Json → Description
  | .null => .null
  | .bool b => .bool b
  | .int n => if 0 ≤ n.toInt then .natural (UInt64.ofNat n.toInt.toNat) else .negative n
  | .large n _ => .natural n
  | .float x _ => .float x
  | .string s => .text s
  | .array items => .sequence (Json.describeItems items)
  | .object entries => .mapping (Json.describeEntries entries)
termination_by structural j => j

def Json.describeItems : List Json → List Description
  | [] => []
  | j :: js => Json.describe j :: Json.describeItems js
termination_by structural js => js

def Json.describeEntries : List (String × Json) → List (Description × Description)
  | [] => []
  | (key, j) :: entries => (.text key, Json.describe j) :: Json.describeEntries entries
termination_by structural entries => entries

end

namespace Description

instance : Inhabited Description := ⟨null⟩

def isNull : Description → Bool
  | null => true
  | _ => false

def asText? : Description → Option String
  | text s => some s
  | _ => none

def asItems? : Description → Option (List Description)
  | sequence items => some items
  | _ => none

/-- A natural number. -/
def asNatural? : Description → Option Nat
  | natural n => some n.toNat
  | negative n => if n = 0 then some 0 else none
  | _ => none

mutual

/-- The data that a description holds, if all its keys are text. -/
def toJson? : Description → Option Json
  | null => some .null
  | bool b => some (.bool b)
  | natural n => Json.ofNatural? n.toNat
  | negative n => some (.int n)
  | float x => some ((Json.ofFloat? x).getD .null)
  | text s => some (.string s)
  | sequence items => (toJsonItems? items).map .array
  | mapping entries => (toJsonEntries? entries).map .object
termination_by structural d => d

def toJsonItems? : List Description → Option (List Json)
  | [] => some []
  | d :: ds => do
    let j ← toJson? d
    return j :: (← toJsonItems? ds)
termination_by structural ds => ds

def toJsonEntries? : List (Description × Description) → Option (List (String × Json))
  | [] => some []
  | (key, d) :: entries => do
    let key ← asText? key
    let j ← toJson? d
    return (key, j) :: (← toJsonEntries? entries)
termination_by structural entries => entries

end

/-! ### Choices and records -/

/-- The number of a choice among `names`, which is given by its name or by its number. -/
def choiceIndex? (names : List String) : Description → Option Nat
  | text s => names.idxOf? s
  | natural n => if n.toNat < names.length then some n.toNat else none
  | _ => none

/-- The number of a choice without content: its name, or a mapping from its name or its number to
nothing. -/
def asChoice? (names : List String) : Description → Option Nat
  | text s => names.idxOf? s
  | mapping [(key, null)] => key.choiceIndex? names
  | mapping [(key, mapping [])] => key.choiceIndex? names
  | _ => none

/-- The place among `names` of the field that a key stands for, by its name or by its number.  Other
names and numbers stand for no field, and other keys must not occur. -/
def fieldPlace? (names : List String) : Description → Option (Option Nat)
  | text s => some (names.idxOf? s)
  | natural n => some (if n.toNat < names.length then some n.toNat else none)
  | _ => none

end Description

namespace Config

variable {α : Type}

/-- The declared fields among the entries of a mapping. -/
def describedFields? (names : List String) (entries : List (Description × α)) :
    Option (List (Option α)) := do
  let placed ← entries.mapM fun e => (e.1.fieldPlace? names).map fun place => (place, e.2)
  fieldsAt? names.length placed

end Config

/-- The declared fields of a record. -/
def Description.asRecord? (names : List String) :
    Description → Option (List (Option Description))
  | mapping entries => Config.describedFields? names entries
  | sequence items => Config.positionalFields names items
  | _ => none

end StructuralMatching
