/-
Nodes of documents, in JSON and in YAML.

* `Node` — a part of a text, and how deeply what it holds may be nested;
* `Document` — what a node of a document can be read as;
* `Record` — a node with declared fields.

Design notes: the two formats differ in what they take for text, for nothing and for a choice, and
what nobody reads need not mean anything; so a record of a document is read through this interface
and not through one tree for both.
-/
import StructuralMatching.Yaml.Resolution

namespace StructuralMatching

namespace Config

/-- A node with declared fields, by their names or by their order. -/
inductive Record (D : Type) where
  | named (entries : List (String × D))
  | positional (items : List D)

namespace Record

variable {D : Type}

/-- The declared fields. -/
def fields? (names : List String) : Record D → Option (List (Option D))
  | named entries => namedFields? names entries
  | positional items => positionalFields names items

/-- Whether none of `n` fields is left out for being at the end. -/
def hasAll (n : Nat) : Record D → Bool
  | named _ => true
  | positional items => n ≤ items.length

end Record

end Config

/-- What a node of a document can be read as. -/
class Document (D : Type) where
  text? : D → Option String
  flag? : D → Option Bool
  natural? : D → Option Nat
  /-- The name of a choice without content. -/
  choice? : D → Option String
  items? : D → Option (List D)
  record? : D → Option (Config.Record D)
  /-- Whether the node stands for nothing. -/
  isAbsent : D → Bool
  /-- The tree of a node that may hold anything. -/
  data? : D → Option Json
  /-- The tree of a node in which something is described. -/
  description? : D → Option Description

/-- A part of a text, and how deeply what it holds may be nested. -/
structure Node (T : Type) where
  tree : T
  room : Nat

namespace Node

variable {T : Type}

/-- A part of what a node holds. -/
def inside (n : Node T) (part : T) : Node T := ⟨part, n.room - 1⟩

end Node

/-! ### JSON -/

namespace Node

/-- The tree of a text. -/
def json? (n : Node JsonSource) : Option Json :=
  if n.tree.nesting ≤ n.room then n.tree.toJson? else none

/-- The fields of a record. -/
def jsonRecord? (n : Node JsonSource) : Option (Config.Record (Node JsonSource)) :=
  if n.room = 0 then none
  else
    match n.tree with
    | .object entries =>
      (entries.mapM fun (e : List JsonSource.Piece × JsonSource) =>
        (JsonSource.Piece.text? e.1).map fun key => (key, n.inside e.2)).map .named
    | .array items => some (.positional (items.map n.inside))
    | _ => none

end Node

instance : Document (Node JsonSource) where
  text? n := n.json?.bind Json.asString?
  flag? n := n.json?.bind Json.asBool?
  natural? n := n.json?.bind Json.asNatural?
  choice? n := n.json?.bind fun j =>
    match j with
    | .string s => some s
    | .object [(name, .null)] => some name
    | _ => none
  items? n :=
    match n.tree with
    | .array items => if n.room = 0 then none else some (items.map n.inside)
    | _ => none
  record? := Node.jsonRecord?
  isAbsent n := n.tree matches .null
  data? := Node.json?
  description? n := n.json?.map Json.describe

/-! ### YAML -/

namespace Scalar

/-- The natural number of 64 bits that a scalar without quotes and without a minus sign stands
for. -/
def natural? (s : Scalar) : Option Nat :=
  match s.describe? with
  | some (.natural n) => some n.toNat
  | _ => none

/-- The truth value that a scalar stands for. -/
def flag? (s : Scalar) : Option Bool :=
  match s.describe? with
  | some (.bool b) => some b
  | _ => none

end Scalar

namespace Node

/-- The entries of a record, whose keys are scalars.  What is not written stands for a record
without entries. -/
def yamlRecord? (n : Node Yaml) : Option (Config.Record (Node Yaml)) :=
  match n.tree with
  | .mapping entries =>
    if n.room = 0 then none
    else
      (entries.mapM fun (e : Yaml × Yaml) =>
        e.1.asText?.map fun key => (key, n.inside e.2)).map .named
  | .scalar s => if s = .empty then some (.named []) else none
  | .sequence _ => none

/-- The items of a list.  What is not written stands for a list without items. -/
def yamlItems? (n : Node Yaml) : Option (List (Node Yaml)) :=
  match n.tree with
  | .sequence items => if n.room = 0 then none else some (items.map n.inside)
  | .scalar s => if s = .empty then some [] else none
  | .mapping _ => none

end Node

/-- In YAML every scalar has a text, and a record has no order of its fields. -/
instance : Document (Node Yaml) where
  text? n := n.tree.asText?
  flag? n := n.tree.asScalar?.bind Scalar.flag?
  natural? n := n.tree.asScalar?.bind Scalar.natural?
  choice? n := n.tree.asText?
  items? := Node.yamlItems?
  record? := Node.yamlRecord?
  isAbsent n := n.tree.asScalar?.any Scalar.isAbsent
  data? n := if n.tree.nesting ≤ n.room then n.tree.toJson? else none
  description? n := if n.tree.nesting ≤ n.room then n.tree.describe? else none

end StructuralMatching
