/-
YAML trees.

* `Scalar` — text, written with or without quotes;
* `Yaml` — a tree as it is written: entries in their order, a key as often as it occurs;
* `Yaml.nesting` — how deeply sequences and mappings are nested.

Design notes: a scalar without quotes may mean something else than its text, so a tree remembers
how its scalars are written.  Any tree may be a key.
-/

namespace StructuralMatching

/-- Text, and whether it is written without quotes. -/
structure Scalar where
  text : String
  plain : Bool
deriving DecidableEq, Repr

/-- What is not written at all. -/
def Scalar.empty : Scalar := ⟨"", true⟩

/-- A YAML tree. -/
inductive Yaml where
  | scalar (s : Scalar)
  | sequence (items : List Yaml)
  | mapping (entries : List (Yaml × Yaml))

namespace Yaml

instance : Inhabited Yaml := ⟨scalar .empty⟩

/-- A node that is not written at all. -/
def empty : Yaml := scalar .empty

def asScalar? : Yaml → Option Scalar
  | scalar s => some s
  | _ => none

/-- The text of a scalar, as it is written. -/
def asText? (y : Yaml) : Option String := y.asScalar?.map Scalar.text

mutual

/-- How deeply sequences and mappings are nested. -/
def nesting : Yaml → Nat
  | scalar _ => 0
  | sequence items => nestingItems items + 1
  | mapping entries => nestingEntries entries + 1
termination_by structural y => y

def nestingItems : List Yaml → Nat
  | [] => 0
  | y :: ys => max (nesting y) (nestingItems ys)
termination_by structural ys => ys

def nestingEntries : List (Yaml × Yaml) → Nat
  | [] => 0
  | (key, y) :: entries => max (max (nesting key) (nesting y)) (nestingEntries entries)
termination_by structural entries => entries

end

end Yaml

end StructuralMatching
