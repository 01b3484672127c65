/-
JSON trees and their compact text.

* `Json` — a tree as it is written: entries in their order, a key as often as it occurs;
* `Json.Normal` — the keys of every object ascend;
* `Json.normalize` — of several entries with one key the last, in ascending order of the keys;
* `Json.render` — the text of a tree without blanks.

Design notes: integers of 64 bits and finite floating-point numbers are told apart, so a tree has
no number that its text could not give.
-/
import StructuralMatching.Binary64.Text
import StructuralMatching.Fields

namespace StructuralMatching

/-- A JSON tree. -/
inductive Json where
  | null
  | bool (b : Bool)
  | int (n : Int64)
  /-- A natural number of 64 bits that is too large for a signed integer. -/
  | large (n : UInt64) (isLarge : 2 ^ 63 ≤ n.toNat)
  | float (x : Binary64) (finite : x.isFinite = true)
  | string (s : String)
  | array (items : List Json)
  | object (entries : List (String × Json))

/-- Numbers in JSON: a whole number keeps a decimal place, and a power of ten is written from
`10 ^ 16` upwards and below `10 ^ (-5)`. -/
def jsonLayout : FloatLayout where
  tie := .even
  positional k := -5 < k && k ≤ 16
  wholeSuffix := ".0"
  plusSign := "+"
  nan := "null"
  infinity := "null"

namespace Json

instance : Inhabited Json := ⟨null⟩

/-- A floating-point number as a tree. -/
def ofFloat? (x : Binary64) : Option Json :=
  if h : x.isFinite then some (float x h) else none

/-- A natural number as a tree, if it has 64 bits. -/
def ofNatural? (n : Nat) : Option Json :=
  if n < 2 ^ 63 then some (int (Int64.ofNat n))
  else if h : 2 ^ 63 ≤ (UInt64.ofNat n).toNat ∧ n < 2 ^ 64 then some (large (UInt64.ofNat n) h.1)
  else none

def asString? : Json → Option String
  | string s => some s
  | _ => none

def asBool? : Json → Option Bool
  | bool b => some b
  | _ => none

/-- A natural number. -/
def asNatural? : Json → Option Nat
  | int n => if 0 ≤ n.toInt then some n.toInt.toNat else none
  | large n _ => some n.toNat
  | _ => none

mutual

/-- The keys of every object ascend. -/
def Normal : Json → Prop
  | array items => NormalItems items
  | object entries => Fields.Ascending entries ∧ NormalEntries entries
  | _ => True
termination_by structural j => j

def NormalItems : List Json → Prop
  | [] => True
  | j :: js => Normal j ∧ NormalItems js
termination_by structural js => js

def NormalEntries : List (String × Json) → Prop
  | [] => True
  | (_, j) :: entries => Normal j ∧ NormalEntries entries
termination_by structural entries => entries

end

mutual

/-- Of several entries with one key the last, in ascending order of the keys. -/
def normalize : Json → Json
  | array items => array (normalizeItems items)
  | object entries => object (Fields.ofList (normalizeEntries entries))
  | j => j
termination_by structural j => j

def normalizeItems : List Json → List Json
  | [] => []
  | j :: js => normalize j :: normalizeItems js
termination_by structural js => js

def normalizeEntries : List (String × Json) → List (String × Json)
  | [] => []
  | (key, j) :: entries => (key, normalize j) :: normalizeEntries entries
termination_by structural entries => entries

end

/-- A digit of base 16. -/
def hexDigit (n : Nat) : Char :=
  if n < 10 then Char.ofNat (48 + n) else Char.ofNat (87 + n)

/-- A character of a string: quotes, backslashes and what lies below the blank are escaped. -/
def escape (c : Char) : List Char :=
  if c = '"' then ['\\', '"']
  else if c = '\\' then ['\\', '\\']
  else if c = '\n' then ['\\', 'n']
  else if c = '\r' then ['\\', 'r']
  else if c = '\t' then ['\\', 't']
  else if c.toNat = 8 then ['\\', 'b']
  else if c.toNat = 12 then ['\\', 'f']
  else if c.toNat < 32 then
    ['\\', 'u', '0', '0', hexDigit (c.toNat / 16), hexDigit (c.toNat % 16)]
  else [c]

/-- A string in quotes. -/
def quote (s : String) : String := "\"" ++ String.ofList (s.toList.flatMap escape) ++ "\""

mutual

/-- The text of a tree, without blanks. -/
def render : Json → String
  | null => "null"
  | bool b => if b then "true" else "false"
  | int n => toString n.toInt
  | large n _ => toString n.toNat
  | float x _ => x.render jsonLayout
  | string s => quote s
  | array items => "[" ++ ",".intercalate (renderItems items) ++ "]"
  | object entries => "\x7b" ++ ",".intercalate (renderEntries entries) ++ "\x7d"
termination_by structural j => j

def renderItems : List Json → List String
  | [] => []
  | j :: js => render j :: renderItems js
termination_by structural js => js

def renderEntries : List (String × Json) → List String
  | [] => []
  | (key, j) :: entries => (quote key ++ ":" ++ render j) :: renderEntries entries
termination_by structural entries => entries

end

end Json

end StructuralMatching
